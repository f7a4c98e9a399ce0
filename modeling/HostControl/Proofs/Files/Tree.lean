/-
Module: HostControl.Proofs.Files.Tree
Purpose: What a change of a tree leaves as it was. A file that is written or taken away alters one place, and what
  was a directory stays one, so paths lead where they led.
Main exports: Alters, put_alters, drop_alters, Keeps, Reaches, locate_iff, read_beside, write_ends, read_of_write,
  rename_ends
-/
import HostControl.Files.Tree
import HostControl.Proofs.Files.Paths

namespace HostControl.Tree

open Text (parts)

variable {t u v : Tree} {place p q goal : Steps} {ps : List Path.Text} {node : Node}

/-! ### Places -/

/-- What is named at a place. -/
def named? (p : Steps) (t : Tree) : Option Node := (t.nodes.find? (·.1 == p)).map (·.2)

/-- Whether a place leads to one that is there. -/
def leads (p : Steps) (t : Tree) : Bool := p.isPrefixOf t.current || t.nodes.any (p.isPrefixOf ·.1)

theorem node?_eq (p : Steps) (t : Tree) :
    t.node? p = (t.named? p).or (if t.leads p then some .directory else none) := by
  rw [node?, named?]
  cases t.nodes.find? (·.1 == p) with
  | none => rfl
  | some entry => rfl

theorem leads_iff : t.leads p = true ↔ p <+: t.current ∨ ∃ entry ∈ t.nodes, p <+: entry.1 := by
  simp [leads]

theorem leads_of_below (below : p <+: q) (leads : t.leads q = true) : t.leads p = true := by
  rw [leads_iff] at leads ⊢
  rcases leads with current | ⟨entry, listed, leads⟩
  · exact .inl (below.trans current)
  · exact .inr ⟨entry, listed, below.trans leads⟩

theorem leads_of_named (named : t.named? p = some node) : t.leads p = true := by
  obtain ⟨entry, found, -⟩ := Option.map_eq_some_iff.1 named
  have same := List.find?_some found
  exact leads_iff.2 (.inr ⟨entry, List.mem_of_find?_eq_some found, beq_iff_eq.1 same ▸ List.prefix_refl _⟩)

/-- Something stands at the places that lead to what is there, and nowhere else. -/
theorem isSome_node?_iff : (t.node? p).isSome = true ↔ t.leads p = true := by
  rw [node?_eq]
  cases named : t.named? p with
  | some node => simp [leads_of_named named]
  | none => simp

/-- The places above one at which something stands are there. -/
theorem isSome_of_below (below : p <+: q) (there : (t.node? q).isSome = true) : (t.node? p).isSome = true :=
  isSome_node?_iff.2 (leads_of_below below (isSome_node?_iff.1 there))

theorem node?_congr (named : u.named? p = t.named? p) (leads : u.leads p = t.leads p) :
    u.node? p = t.node? p := by
  rw [node?_eq, node?_eq, named, leads]

/-! ### One place altered -/

/-- One tree is another one but for what stands at one place. -/
structure Alters (goal : Steps) (t u : Tree) : Prop where
  current : u.current = t.current
  elsewhere : ∀ p, p ≠ goal → u.node? p = t.node? p

theorem Alters.trans (first : Alters goal t u) (second : Alters goal u v) : Alters goal t v :=
  ⟨second.current.trans first.current, fun p other =>
    (second.elsewhere p other).trans (first.elsewhere p other)⟩

theorem named?_without (other : p ≠ goal) :
    ({ t with nodes := t.nodes.filter (·.1 != goal) } : Tree).named? p = t.named? p := by
  rw [named?, named?, List.find?_filter]
  congr 2
  funext entry
  by_cases here : entry.1 = p
  · simp [here, other]
  · simp [here]

theorem named?_put_of_ne (other : p ≠ goal) : (t.put goal node).named? p = t.named? p := by
  rw [← named?_without (t := t) other, named?, named?, put, List.find?_append,
    List.find?_singleton, if_neg (by simpa using other.symm), Option.or_none]

theorem node?_put_self (goal : Steps) (node : Node) (t : Tree) : (t.put goal node).node? goal = some node := by
  have gone : (t.nodes.filter (·.1 != goal)).find? (·.1 == goal) = none := by simp
  rw [node?, put, List.find?_append, gone]
  simp

theorem leads_without : ({ t with nodes := t.nodes.filter (·.1 != goal) } : Tree).leads p = true ↔
    p <+: t.current ∨ ∃ entry ∈ t.nodes, entry.1 ≠ goal ∧ p <+: entry.1 := by
  simp [leads_iff, and_assoc]

theorem leads_put : (t.put goal node).leads p = true ↔ t.leads p = true ∨ p <+: goal := by
  rw [leads_iff, leads_iff]
  constructor
  · rintro (current | ⟨entry, listed, below⟩)
    · exact .inl (.inl current)
    · rcases List.mem_append.1 listed with old | new
      · exact .inl (.inr ⟨entry, List.mem_of_mem_filter old, below⟩)
      · rw [List.mem_singleton.1 new] at below
        exact .inr below
  · rintro ((current | ⟨entry, listed, below⟩) | below)
    · exact .inl current
    · by_cases here : entry.1 = goal
      · exact .inr ⟨(goal, node), by simp [put], here ▸ below⟩
      · exact .inr ⟨entry, by simp [put, listed, here], below⟩
    · exact .inr ⟨(goal, node), by simp [put], below⟩

/-- A way that ends before a place is one to the directory of that place. -/
theorem prefix_dropLast (below : p <+: goal) (other : p ≠ goal) : p <+: goal.dropLast := by
  obtain ⟨rest, rfl⟩ := below
  have some : rest ≠ [] := by
    rintro rfl
    exact other (List.append_nil p).symm
  rw [List.dropLast_append_of_ne_nil some]
  exact List.prefix_append p rest.dropLast

/-- What is put into a directory alters one place. -/
theorem put_alters (node : Node) (ready : (t.node? goal.dropLast).isSome = true) :
    Alters goal t (t.put goal node) := by
  refine ⟨rfl, fun p other => node?_congr (named?_put_of_ne other) ?_⟩
  rw [Bool.eq_iff_iff, leads_put, or_iff_left_iff_imp]
  exact fun below => leads_of_below (prefix_dropLast below other) (isSome_node?_iff.1 ready)

/-- Without what stood at a place, the ways to its directory are the only ones that may be missing. -/
theorem leads_without_or (other : p ≠ goal) (ready : t.leads goal.dropLast = true) :
    ({ t with nodes := t.nodes.filter (·.1 != goal) } : Tree).leads p = true ∨ p <+: goal.dropLast ↔
      t.leads p = true := by
  rw [leads_without]
  constructor
  · rintro ((current | ⟨entry, listed, -, below⟩) | below)
    · exact leads_iff.2 (.inl current)
    · exact leads_iff.2 (.inr ⟨entry, listed, below⟩)
    · exact leads_of_below below ready
  · intro leads
    rcases leads_iff.1 leads with current | ⟨entry, listed, below⟩
    · exact .inl (.inl current)
    · by_cases here : entry.1 = goal
      · exact .inr (prefix_dropLast (here ▸ below) other)
      · exact .inl (.inr ⟨entry, listed, here, below⟩)

/-- Taking something out of a directory alters one place. -/
theorem drop_alters (ready : t.node? goal.dropLast = some .directory) : Alters goal t (t.drop goal) := by
  have leads : t.leads goal.dropLast = true := isSome_node?_iff.1 (by rw [ready]; rfl)
  rw [drop]
  split
  · next stays =>
    refine ⟨rfl, fun p other => node?_congr (named?_without other) ?_⟩
    rw [isDirectory, decide_eq_true_eq] at stays
    rw [Bool.eq_iff_iff, ← leads_without_or other leads, iff_self_or]
    exact fun below => leads_of_below below (isSome_node?_iff.1 (by rw [stays]; rfl))
  -- Nothing else leads to the directory any more, so it is named, and all that led to the place leads to it.
  · refine ⟨rfl, fun p other => ?_⟩
    by_cases up : p = goal.dropLast
    · rw [up, node?_put_self, ready]
    · refine node?_congr ((named?_put_of_ne up).trans (named?_without other)) ?_
      rw [Bool.eq_iff_iff, leads_put, leads_without_or other leads]

/-! ### Directories that stay -/

/-- Paths of one tree begin where those of another one do, and what is a directory in that is one here. -/
structure Keeps (t u : Tree) : Prop where
  current : u.current = t.current
  directory : ∀ p, t.node? p = some .directory → u.node? p = some .directory

theorem Alters.keeps (alters : Alters goal t u) (goes : t.node? goal ≠ some .directory) : Keeps t u :=
  ⟨alters.current, fun p directory => by
    rw [alters.elsewhere p (by rintro rfl; exact goes directory), directory]⟩

theorem Alters.symm (alters : Alters goal t u) : Alters goal u t :=
  ⟨alters.current.symm, fun p other => (alters.elsewhere p other).symm⟩

theorem Keeps.refl (t : Tree) : Keeps t t := ⟨rfl, fun _ there => there⟩

theorem Keeps.trans (first : Keeps t u) (second : Keeps u v) : Keeps t v :=
  ⟨second.current.trans first.current, fun p there => second.directory p (first.directory p there)⟩

theorem isDirectory_iff : t.isDirectory p = true ↔ t.node? p = some .directory := by
  rw [isDirectory, decide_eq_true_eq]

theorem walk_append (t : Tree) (place : Steps) (ps qs : List Path.Text) :
    t.walk place (ps ++ qs) = (t.walk place ps).bind (t.walk · qs) := by
  induction ps generalizing place with
  | nil => rfl
  | cons part ps ih =>
    rw [List.cons_append, walk, walk]
    cases t.step place part with
    | ok next => exact ih next
    | error e => rfl

/-- A part is followed from a directory only. -/
theorem directory_of_step {part : Path.Text} (led : t.step place part = .ok p) :
    t.node? place = some .directory := by
  rw [step] at led
  split at led
  · cases led
  · next there =>
    rw [Bool.not_eq_true, Bool.not_eq_false'] at there
    exact isDirectory_iff.1 there

theorem directory_of_walk (led : t.walk place ps = .ok p) (ends : t.node? p = some .directory) :
    t.node? place = some .directory := by
  cases ps with
  | nil =>
    cases led
    exact ends
  | cons part ps =>
    rw [walk] at led
    cases stepped : t.step place part with
    | ok next => exact directory_of_step stepped
    | error e => simp [stepped] at led

/-- What a part does in a directory. -/
theorem step_of_directory (begins : t.node? place = some .directory) (part : Path.Text) :
    t.step place part =
      if Path.isIdle part then .ok place
      else if Path.isUp part then .ok place.dropLast
      else if nameLimit < byteCount part then .error .refused
      else if (t.node? (place ++ [part])).isSome then .ok (place ++ [part])
      else .error .missing := by
  rw [step, isDirectory_iff.2 begins]
  rfl

/-- Where directories stay, a part leads to the same one. -/
theorem step_keeps {part : Path.Text} (keeps : Keeps t u) (led : t.step place part = .ok p)
    (ends : t.node? p = some .directory) : u.step place part = .ok p := by
  have begins := directory_of_step led
  rw [step_of_directory begins] at led
  rw [step_of_directory (keeps.directory place begins)]
  split_ifs at led ⊢ with idle up long gone
  · exact led
  · exact led
  · exact led
  · cases led
    rw [keeps.directory _ ends] at gone
    exact absurd rfl gone

/-- Where directories stay, a path leads to the same one: every place on the way to a directory is one. -/
theorem walk_keeps (keeps : Keeps t u) (led : t.walk place ps = .ok p) (ends : t.node? p = some .directory) :
    u.walk place ps = .ok p := by
  induction ps generalizing place with
  | nil => exact led
  | cons part ps ih =>
    rw [walk] at led ⊢
    cases stepped : t.step place part with
    | ok next =>
      rw [stepped] at led
      rw [step_keeps keeps stepped (directory_of_walk led ends)]
      exact ih led
    | error e => simp [stepped] at led

theorem start_congr (current : u.current = t.current) (path : Path.Text) : u.start path = t.start path := by
  rw [start, start, current]

/-! ### Targets -/

variable {path other name new : Path.Text} {ds idles : List Path.Text} {begins directory : Steps}

/-- How a path leads to a name in a directory. -/
structure Reaches (path : Path.Text) (begins : Steps) (ds : List Path.Text) (directory : Steps) (name : Path.Text)
    (t : Tree) : Prop where
  starts : t.start path = .ok begins
  divided : parts '/' path = ds ++ [name]
  led : t.walk begins ds = .ok directory
  there : t.node? directory = some .directory
  counts : Path.isIdle name = false
  down : Path.isUp name = false
  short : byteCount name ≤ nameLimit

theorem locateParts_iff {last : Path.Text} :
    t.locateParts place (ds ++ [last]) = .ok (.name directory name) ↔
      t.walk place ds = .ok directory ∧ t.node? directory = some .directory ∧ last = name ∧
        Path.isIdle name = false ∧ Path.isUp name = false ∧ byteCount name ≤ nameLimit := by
  simp only [locateParts, List.getLast?_concat, List.dropLast_concat]
  constructor
  · intro located
    cases led : t.walk place ds with
    | error e => simp [led] at located
    | ok d =>
      simp only [led] at located
      split_ifs at located with gone idle up long
      · cases located
      · cases located
      · cases located
        rw [Bool.not_eq_true, Bool.not_eq_false'] at gone
        exact ⟨rfl, isDirectory_iff.1 gone, rfl, Bool.not_eq_true _ ▸ idle, Bool.not_eq_true _ ▸ up,
          Nat.le_of_not_lt long⟩
  · rintro ⟨led, there, rfl, counts, down, short⟩
    simp [led, isDirectory_iff.2 there, counts, down, Nat.not_lt.2 short]

theorem locate_iff :
    t.locate path = .ok (.name directory name) ↔ ∃ begins ds, Reaches path begins ds directory name t := by
  obtain ⟨front, last, divided⟩ := (List.eq_nil_or_concat _).resolve_left (Text.parts_ne_nil '/' path)
  rw [List.concat_eq_append] at divided
  rw [locate, divided]
  constructor
  · intro located
    cases starts : t.start path with
    | error e => simp [starts] at located
    | ok begins =>
      rw [starts] at located
      obtain ⟨led, there, rfl, counts, down, short⟩ := locateParts_iff.1 located
      exact ⟨begins, front, starts, divided, led, there, counts, down, short⟩
  · rintro ⟨begins, ds, reaches⟩
    have ends := divided.symm.trans reaches.divided
    rw [reaches.starts, ends]
    exact locateParts_iff.2 ⟨reaches.led, reaches.there, rfl, reaches.counts, reaches.down, reaches.short⟩

/-- Where directories stay, a path leads to the same name. -/
theorem Reaches.keeps (reaches : Reaches path begins ds directory name t) (keeps : Keeps t u) :
    Reaches path begins ds directory name u :=
  { reaches with
    starts := (start_congr keeps.current path).trans reaches.starts
    led := walk_keeps keeps reaches.led reaches.there
    there := keeps.directory directory reaches.there }

/-- A directory that is there stays there where directories stay. -/
theorem holdsDirectory_keeps (keeps : Keeps t u) (holds : t.holdsDirectory path = true) :
    u.holdsDirectory path = true := by
  rw [holdsDirectory, resolve] at holds ⊢
  rw [start_congr keeps.current]
  cases starts : t.start path with
  | error e => simp [starts] at holds
  | ok begins =>
    simp only [starts] at holds ⊢
    cases led : t.walk begins (parts '/' path) with
    | error e => simp [led] at holds
    | ok place =>
      simp only [led] at holds
      have there := isDirectory_iff.1 holds
      rw [walk_keeps keeps led there]
      exact isDirectory_iff.2 (keeps.directory place there)

theorem Reaches.step_eq (reaches : Reaches path begins ds directory name t) :
    t.step directory name =
      if (t.node? (directory ++ [name])).isSome then .ok (directory ++ [name]) else .error .missing := by
  rw [step_of_directory reaches.there]
  simp [reaches.counts, reaches.down, Nat.not_lt.2 reaches.short]

theorem Reaches.resolve_eq (reaches : Reaches path begins ds directory name t) :
    t.resolve path =
      if (t.node? (directory ++ [name])).isSome then .ok (directory ++ [name]) else .error .missing := by
  rw [resolve, reaches.starts]
  simp only [reaches.divided, walk_append, reaches.led, Except.bind, walk, reaches.step_eq]
  split_ifs <;> rfl

/-- Idle parts lead on from nothing but a directory, and nowhere else. -/
theorem walk_idles (idle : ∀ part ∈ idles, Path.isIdle part = true) :
    t.walk p idles = if idles = [] ∨ t.node? p = some .directory then .ok p else .error .refused := by
  induction idles with
  | nil => rfl
  | cons part idles ih =>
    obtain ⟨first, later⟩ := List.forall_mem_cons.1 idle
    rw [walk]
    by_cases there : t.node? p = some .directory
    · rw [step_of_directory there, if_pos first, if_pos (.inr there)]
      simp only [ih later, there, or_true, if_true]
    · have stops : t.step p part = .error .refused := by
        rw [step, if_pos (by simpa [isDirectory] using there)]
      rw [stops, if_neg (by simp [there])]

/-- What is read at a path is told by the place of its name, and by what follows the name. -/
theorem read_of_walk (starts : t.start path = .ok begins) (divided : parts '/' path = ds ++ name :: idles)
    (led : t.walk begins ds = .ok directory) (there : t.node? directory = some .directory)
    (counts : Path.isIdle name = false) (down : Path.isUp name = false)
    (idle : ∀ part ∈ idles, Path.isIdle part = true) :
    t.read path =
      if nameLimit < byteCount name then .error .refused
      else
        match t.node? (directory ++ [name]) with
        | none => .error .missing
        | some .directory => .error .refused
        | some (.file contents) => if idles = [] then .ok contents else .error .refused := by
  have follows : t.resolve path = (t.step directory name).bind (t.walk · idles) := by
    rw [resolve, starts]
    simp only [divided, walk_append, led, Except.bind, walk]
    cases t.step directory name <;> rfl
  have steps := step_of_directory there name
  rw [counts, down, if_neg Bool.false_ne_true, if_neg Bool.false_ne_true] at steps
  rw [read, follows, steps]
  by_cases long : nameLimit < byteCount name
  · rw [if_pos long, if_pos long]
    rfl
  rw [if_neg long, if_neg long]
  cases stands : t.node? (directory ++ [name]) with
  | none => rfl
  | some node =>
    simp only [Option.isSome_some, if_true, Except.bind, walk_idles idle, stands]
    cases node with
    | directory => simp [stands]
    | file contents => by_cases last : idles = [] <;> simp [stands, last]

/-- What is read at a path with a name is the file of that name. -/
theorem Reaches.read_eq (reaches : Reaches path begins ds directory name t) :
    t.read path = match t.node? (directory ++ [name]) with
      | none => .error .missing
      | some .directory => .error .refused
      | some (.file contents) => .ok contents := by
  rw [read_of_walk reaches.starts reaches.divided reaches.led reaches.there reaches.counts reaches.down (by simp),
    if_neg (Nat.not_lt.2 reaches.short)]
  rfl

/-- A path that ends with an idle part or by leading up has no name as its target. -/
theorem locate_nameless (nameless : Path.fileName? path = none) :
    t.locate path ≠ .ok (.name directory name) := by
  intro located
  obtain ⟨_, _, reaches⟩ := locate_iff.1 located
  obtain ⟨last, ends, nowhere⟩ := Path.last_of_fileName?_none nameless
  rw [reaches.divided, List.getLast?_concat] at ends
  cases ends
  rw [reaches.counts, reaches.down] at nowhere
  simp at nowhere

/-! ### Reading beside a change -/

theorem absolute_iff : path.head? = some '/' ↔ ∃ rest, rest ≠ [] ∧ parts '/' path = [] :: rest := by
  cases path with
  | nil => simp [parts]
  | cons c path =>
    rw [List.head?_cons, Option.some.injEq]
    constructor
    · rintro rfl
      exact ⟨parts '/' path, Text.parts_ne_nil '/' path, by rw [parts, if_pos rfl]⟩
    · rintro ⟨rest, -, divided⟩
      by_contra other
      obtain ⟨part, more, first⟩ := List.exists_cons_of_ne_nil (Text.parts_ne_nil '/' path)
      rw [Text.parts_cons other first] at divided
      simp at divided

theorem start_eq (starts : t.start path = .ok p) : p = if path.head? = some '/' then [] else t.current := by
  rw [start] at starts
  split_ifs at starts with nothing long absolute
  · cases starts
    rw [if_pos absolute]
  · cases starts
    rw [if_neg absolute]

/-- Paths beside each other begin at one place. -/
theorem start_beside (beside : Path.Beside path other ds name new idles) (starts : t.start path = .ok p)
    (starts' : t.start other = .ok q) : p = q := by
  have both : path.head? = some '/' ↔ other.head? = some '/' := by
    rw [absolute_iff, absolute_iff, beside.parts_path, beside.parts_other]
    cases ds with
    | nil =>
      have some : name ≠ [] := by
        rintro rfl
        exact absurd beside.counts (by decide)
      simp [some]
    | cons d ds => simp
  rw [start_eq starts, start_eq starts']
  exact if_congr both rfl rfl

/-- What stands at a path is told by the place that it leads to and by what leads there. If the path of a file beside
it can be written at, it does not matter what is written. -/
theorem read_beside (beside : Path.Beside path other ds name new idles)
    (located : t.locate other = .ok (.name directory new)) (keeps : Keeps t u)
    (same : u.node? (directory ++ [name]) = t.node? (directory ++ [name])) : u.read path = t.read path := by
  obtain ⟨begins, front, reaches⟩ := locate_iff.1 located
  obtain rfl : ds = front := List.append_cancel_right (beside.parts_other.symm.trans reaches.divided)
  have reaches' := reaches.keeps keeps
  have begun := start_congr keeps.current path
  cases starts : t.start path with
  | error e => rw [read, read, resolve, resolve, begun, starts]
  | ok first =>
    obtain rfl := start_beside beside starts reaches.starts
    rw [read_of_walk starts beside.parts_path reaches.led reaches.there beside.counts beside.down beside.idle,
      read_of_walk (begun.trans starts) beside.parts_path reaches'.led reaches'.there beside.counts beside.down
        beside.idle, same]

/-! ### Files -/

variable {contents : String}

/-- A file is written at one place, at which no directory is. -/
theorem write_ends (written : t.write path contents = .ok u) :
    ∃ begins ds directory name, Reaches path begins ds directory name t ∧
      t.node? (directory ++ [name]) ≠ some .directory ∧ Alters (directory ++ [name]) t u ∧
      u.node? (directory ++ [name]) = some (.file contents) := by
  rw [write] at written
  cases located : t.locate path with
  | error e => simp [located] at written
  | ok target =>
    cases target with
    | directory p => simp [located] at written
    | name d name =>
      obtain ⟨begins, ds, reaches⟩ := locate_iff.1 located
      simp only [located] at written
      split_ifs at written with taken
      cases written
      refine ⟨begins, ds, d, name, reaches, fun there => taken (isDirectory_iff.2 there), ?_, ?_⟩
      · exact put_alters _ (by rw [List.dropLast_concat, reaches.there]; rfl)
      · exact node?_put_self _ _ t

/-- What is written is what is read. -/
theorem read_of_write (written : t.write path contents = .ok u) : u.read path = .ok contents := by
  obtain ⟨_, _, _, _, reaches, free, alters, stands⟩ := write_ends written
  rw [(reaches.keeps (alters.keeps free)).read_eq, stands]

theorem remove_of_resolve (resolved : t.resolve path = .ok place) (stands : t.node? place = some (.file contents)) :
    t.remove path = .ok (t.drop place) := by
  rw [remove, resolved]
  simp [isDirectory, stands]

/-- A file that takes the place of another one is read there. What was there was no directory. -/
theorem rename_ends (resolved : t.resolve path = .ok place) (stands : t.node? place = some (.file contents))
    (ready : t.node? place.dropLast = some .directory) (renamed : t.rename path other = .ok u) :
    Keeps t u ∧ u.read other = .ok contents ∧
      ∃ begins ds directory name, Reaches other begins ds directory name t ∧
        t.node? (directory ++ [name]) ≠ some .directory := by
  rw [rename, resolved] at renamed
  cases located : t.locate other with
  | error e => simp [located] at renamed
  | ok target =>
    cases target with
    | directory p => simp [located] at renamed
    | name d name =>
      obtain ⟨begins, ds, reaches⟩ := locate_iff.1 located
      simp only [located, stands] at renamed
      split_ifs at renamed with taken same
      · cases renamed
        have free : t.node? (d ++ [name]) ≠ some .directory := by simp [← same, stands]
        refine ⟨Keeps.refl t, ?_, begins, ds, d, name, reaches, free⟩
        rw [reaches.read_eq, ← same, stands]
      · cases renamed
        have free : t.node? (d ++ [name]) ≠ some .directory := fun there => taken (isDirectory_iff.2 there)
        have dropped := drop_alters (t := t) ready
        have first : Keeps t (t.drop place) := dropped.keeps (by simp [stands])
        have put : Alters (d ++ [name]) (t.drop place) ((t.drop place).put (d ++ [name]) (.file contents)) :=
          put_alters _ (by rw [List.dropLast_concat, (reaches.keeps first).there]; rfl)
        have second := put.keeps (by rwa [dropped.elsewhere _ (Ne.symm same)])
        refine ⟨first.trans second, ?_, begins, ds, d, name, reaches, free⟩
        rw [((reaches.keeps first).keeps second).read_eq, node?_put_self]

end HostControl.Tree
