/-
Module: HostControl.Proofs.Access.Storage
Purpose: The registry with its file in a tree is a registry whose writes succeed or fail. Where the directory for the
  file is there, what stands at the path of the file is what stood there whichever step of a write fails; a write that
  succeeds leaves its text.
Main exports: Ready, writeThrough_ends, putInPlace_done, putInPlace_failed, putInPlace_refines, Storage.carryOut,
  Storage.InTune, Storage.carryOut_refines, Storage.after_refines, Storage.file_after
-/
import HostControl.Access.Storage
import HostControl.Proofs.Access.Run
import HostControl.Proofs.Files.Growth

namespace HostControl.Access

open HostControl.Tree (Keeps Grows Alters)

variable {path : Path.Text} {contents : String} {t u : Tree}

/-! ### The draft -/

/-- The draft is beside the file, or at no place at all. -/
theorem draft_beside (path : Path.Text) :
    (∃ ds name new idles, Path.Beside path (draftPath path) ds name new idles) ∨
      Path.fileName? (draftPath path) = none :=
  Path.withExtension_beside "toml".toList "tmp".toList path (by decide) (by decide)

/-- A draft that is written and taken away again leaves what is read at the path of the file. -/
theorem read_of_draft {directory : Steps} {new : Path.Text}
    (located : t.locate (draftPath path) = .ok (.name directory new))
    (alters : Alters (directory ++ [new]) t u) (free : t.node? (directory ++ [new]) ≠ some .directory) :
    u.read path = t.read path := by
  rcases draft_beside path with ⟨ds, name, new', idles, beside⟩ | nameless
  · obtain ⟨_, _, reaches⟩ := Tree.locate_iff.1 located
    obtain ⟨-, last⟩ := List.append_inj' (beside.parts_other.symm.trans reaches.divided) rfl
    cases last
    have other : directory ++ [name] ≠ directory ++ [new] := by simpa using beside.different.symm
    exact Tree.read_beside beside located (alters.keeps free) (alters.elsewhere _ other)
  · exact absurd located (Tree.locate_nameless nameless)

/-- The text takes the place of the file, or what is read there stays as it was. No directory is lost. -/
theorem writeThrough_ends (path : Path.Text) (contents : String) (t : Tree) :
    Keeps t (writeThrough path contents t).2 ∧
      (((writeThrough path contents t).1 = none ∧ (writeThrough path contents t).2.read path = .ok contents ∧
          t.read path ≠ .error .refused) ∨
        ((writeThrough path contents t).1 ≠ none ∧ (writeThrough path contents t).2.read path = t.read path)) := by
  rw [writeThrough]
  cases written : t.write (draftPath path) contents with
  | error e => exact ⟨Keeps.refl t, .inr ⟨by simp, rfl⟩⟩
  | ok w =>
    obtain ⟨_, _, d, new, reaches, free, alters, stands⟩ := Tree.write_ends written
    have first : Keeps t w := alters.keeps free
    have there := (reaches.keeps first).there
    have resolved : w.resolve (draftPath path) = .ok (d ++ [new]) := by
      rw [(reaches.keeps first).resolve_eq, stands]
      rfl
    cases renamed : w.rename (draftPath path) path with
    | ok u =>
      simp only [renamed]
      obtain ⟨second, reads, _, _, d', name, reaches', free'⟩ :=
        Tree.rename_ends resolved stands (by rwa [List.dropLast_concat]) renamed
      -- The draft takes nothing away but what stood at its own place, which may be that of the file.
      have clear : t.node? (d' ++ [name]) ≠ some .directory := by
        by_cases here : d' ++ [name] = d ++ [new]
        · rwa [here]
        · rwa [← alters.elsewhere _ here]
      have back : Keeps w t := alters.symm.keeps (by simp [stands])
      refine ⟨first.trans second, .inl ⟨trivial, reads, ?_⟩⟩
      rw [(reaches'.keeps back).read_eq]
      cases before : t.node? (d' ++ [name]) with
      | none => simp
      | some node =>
        cases node with
        | file old => simp
        | directory => exact absurd before clear
    | error e =>
      simp only [renamed, Tree.remove_of_resolve resolved stands]
      have dropped := alters.trans (Tree.drop_alters (by rwa [List.dropLast_concat]))
      exact ⟨dropped.keeps free, .inr ⟨by simp, read_of_draft (Tree.locate_iff.2 ⟨_, _, reaches⟩) dropped free⟩⟩

/-! ### The directory of the file -/

/-- The directory that is to hold the file is there. -/
def Ready (path : Path.Text) (t : Tree) : Prop :=
  ∀ up, Path.parent? path = some up → up = [] ∨ t.holdsDirectory up = true

theorem Ready.keeps (ready : Ready path t) (keeps : Keeps t u) : Ready path u :=
  fun up above => (ready up above).imp_right (Tree.holdsDirectory_keeps keeps)

/-- A write may make directories before it comes to the draft, unless the one that it needs is there. -/
theorem putInPlace_cases (path : Path.Text) (contents : String) (t : Tree) :
    ∃ made, Grows t made ∧ (Ready path t → made = t) ∧
      (putInPlace path contents t = writeThrough path contents made ∨
        ∃ up, putInPlace path contents t = (some (.createDirectory, up), made) ∧ ¬Ready path t) := by
  rw [putInPlace]
  split
  · exact ⟨t, Grows.refl t, fun _ => rfl, .inl rfl⟩
  · exact ⟨t, Grows.refl t, fun _ => rfl, .inl rfl⟩
  · next up some above =>
    have grows := Tree.makeDirectories_grows up t
    have needless (ready : Ready path t) : t.makeDirectories up = (true, t) :=
      Tree.makeDirectories_of_holdsDirectory ((ready up above).resolve_left some)
    cases made : t.makeDirectories up with
    | mk there g =>
      rw [made] at grows
      cases there with
      | true =>
        refine ⟨g, grows, fun ready => ?_, .inl rfl⟩
        cases (needless ready).symm.trans made
        rfl
      | false =>
        have unready : ¬Ready path t := fun ready => by cases (needless ready).symm.trans made
        exact ⟨g, grows, fun ready => absurd ready unready, .inr ⟨up, rfl, unready⟩⟩

/-! ### What stands at the path -/

theorem putInPlace_keeps (path : Path.Text) (contents : String) (t : Tree) :
    Keeps t (putInPlace path contents t).2 := by
  obtain ⟨made, grows, -, same | ⟨up, same, -⟩⟩ := putInPlace_cases path contents t
  · rw [same]
    exact grows.keeps.trans (writeThrough_ends path contents made).1
  · rw [same]
    exact grows.keeps

theorem at_congr (same : u.read path = t.read path) : Place.at path u = Place.at path t := by
  rw [Place.at, Place.at, same]

theorem at_eq_missing : Place.at path t = .missing ↔ t.read path = .error .missing := by
  rw [Place.at]
  split <;> simp_all

theorem at_eq_directory : Place.at path t = .directory ↔ t.read path = .error .refused := by
  rw [Place.at]
  split <;> simp_all

/-- A write that succeeds leaves its text, where there was no directory. -/
theorem putInPlace_done (done : (putInPlace path contents t).1 = none) :
    Place.at path (putInPlace path contents t).2 = .text contents ∧ Place.at path t ≠ .directory := by
  obtain ⟨made, grows, -, same | ⟨up, same, -⟩⟩ := putInPlace_cases path contents t
  · rw [same] at done ⊢
    rcases (writeThrough_ends path contents made).2 with ⟨-, reads, readable⟩ | ⟨failed, -⟩
    · refine ⟨by rw [Place.at, reads], fun refused => ?_⟩
      rw [at_eq_directory] at refused
      have found : t.read path ≠ .error .missing := by simp [refused]
      exact readable ((Tree.read_grows grows found).trans refused)
    · exact absurd done failed
  · rw [same] at done
    cases done

/-- A write that fails leaves what stood at the path of the file, whichever step it is that fails. Where nothing could
be found on the way there, the directories that it has made stay. -/
theorem putInPlace_failed (failed : (putInPlace path contents t).1 ≠ none)
    (kept : Ready path t ∨ Place.at path t ≠ .missing) :
    Place.at path (putInPlace path contents t).2 = Place.at path t := by
  obtain ⟨made, grows, ready, ends⟩ := putInPlace_cases path contents t
  have before : made.read path = t.read path := by
    rcases kept with there | found
    · rw [ready there]
    · exact Tree.read_grows grows (mt at_eq_missing.2 found)
  rcases ends with same | ⟨up, same, -⟩
  · rw [same] at failed ⊢
    rcases (writeThrough_ends path contents made).2 with ⟨done, -⟩ | ⟨-, reads⟩
    · exact absurd done failed
    · exact at_congr (reads.trans before)
  · rw [same]
    exact at_congr before

/-- A directory that is made can open the way to a file that could not be found. -/
example :
    let t : Tree := { nodes := [(["proxy.toml".toList], .file "old"), (["proxy.toml.tmp".toList], .directory)] }
    let path := "new/../proxy.toml".toList
    Place.at path t = .missing ∧ Place.at path (putInPlace path "text" t).2 = .text "old" := by
  decide

/-- Seen at the path of the file, a write in the tree is a write of the place that ends as it does. -/
theorem putInPlace_refines (path : Path.Text) (contents : String) {t : Tree} (ready : Ready path t) :
    ((putInPlace path contents t).1 = none ∧
        (Place.at path t).write contents none = .ok (.at path (putInPlace path contents t).2)) ∨
      ∃ failed p, (putInPlace path contents t).1 = some (failed, p) ∧
        (Place.at path t).write contents (some { step := failed }) = .error { step := failed } ∧
        Place.at path (putInPlace path contents t).2 = .at path t := by
  cases ends : (putInPlace path contents t).1 with
  | none =>
    obtain ⟨stands, free⟩ := putInPlace_done ends
    refine .inl ⟨rfl, ?_⟩
    rw [stands]
    cases before : Place.at path t with
    | missing => rfl
    | text old => rfl
    | directory => exact absurd before free
  | some failure =>
    obtain ⟨failed, p⟩ := failure
    exact .inr ⟨failed, p, rfl, rfl, putInPlace_failed (by simp [ends]) (.inl ready)⟩

/-! ### One call -/

namespace Storage

/-- What a call does to the registry and to the file. -/
def carryOut (call : Call) (now : Instant) (s : Storage) : Change Reply × Storage :=
  match call with
  | .add kind pattern description addedBy expiresAt =>
    let (c, s) := s.change fun fault r => r.add kind pattern description addedBy expiresAt now fault
    (c.map .entry, s)
  | .remove kind pattern actor =>
    let (c, s) := s.change fun fault r => r.remove kind pattern actor now fault
    (c.map .entry, s)
  | .cleanup =>
    let (c, s) := s.change fun fault r => r.cleanup now fault
    (c.map .count, s)

theorem change_map {α β : Type} (f : α → β) (step : Option WriteFault → Registry → Change α) (s : Storage) :
    (s.change fun fault r => (step fault r).map f) = ((s.change step).1.map f, (s.change step).2) := by
  simp only [change, Change.map]
  split
  · split <;> rfl
  · split <;> rfl

/-- A call is a step of the registry whose write fails as the write of the file does. -/
theorem carryOut_eq (call : Call) (now : Instant) (s : Storage) :
    s.carryOut call now = s.change fun fault => (Step.mk call now fault).carryOut := by
  cases call with
  | add kind pattern description addedBy expiresAt => exact (change_map _ _ s).symm
  | remove kind pattern actor => exact (change_map _ _ s).symm
  | cleanup => exact (change_map _ _ s).symm

/-- The registry knows what stands at the path of its file. -/
def InTune (s : Storage) : Prop := s.registry.place = .at s.path s.tree

theorem open?_inTune {middleware : String} {path : Path.Text} {tree : Tree} {now : Instant} {s : Storage}
    (opened : open? middleware path tree now = .ok s) : s.InTune ∧ s.path = path ∧ s.tree = tree := by
  rw [open?, Registry.open?] at opened
  cases ranges : (Place.at path tree).ranges middleware with
  | error e => simp [ranges, Except.map] at opened
  | ok rs =>
    simp only [ranges, Except.map, Except.ok.injEq] at opened
    rw [← opened]
    exact ⟨rfl, rfl, rfl⟩

section Outcomes

variable {α : Type} {step : Option WriteFault → Registry → Change α} {s : Storage} {text : String}

/-- A call that means to write nothing leaves the tree as it was. -/
theorem change_quiet (quiet : (step none s.registry).drafts = []) :
    s.change step = (step none s.registry,
      { s with registry := { (step none s.registry).registry with place := .at s.path s.tree } }) := by
  simp only [change, quiet]

theorem change_done (drafts : (step none s.registry).drafts = [text])
    (done : (putInPlace s.path text s.tree).1 = none) :
    s.change step = (step none s.registry,
      { s with
        tree := (putInPlace s.path text s.tree).2
        registry := { (step none s.registry).registry with
          place := .at s.path (putInPlace s.path text s.tree).2 } }) := by
  simp only [change, drafts, done]

theorem change_failed {failed : WriteStep} {p : Path.Text} (drafts : (step none s.registry).drafts = [text])
    (fails : (putInPlace s.path text s.tree).1 = some (failed, p)) :
    s.change step = (step (some { step := failed }) s.registry,
      { s with
        tree := (putInPlace s.path text s.tree).2
        registry := { (step (some { step := failed }) s.registry).registry with
          place := .at s.path (putInPlace s.path text s.tree).2 } }) := by
  simp only [change, drafts, fails]

end Outcomes

/-- A step whose write is made to fail leaves the registry as it was. -/
theorem registry_of_fault (call : Call) (now : Instant) (fault : WriteFault) (r : Registry) :
    ((Step.mk call now (some fault)).carryOut r).registry = r := by
  rcases carryOut_cases ⟨call, now, some fault⟩ r with ⟨e, same⟩ | ⟨-, -, -, same⟩ | ⟨_, _, -, _, _, same⟩
  · rw [same]
    rfl
  · rw [same]
  · rw [same]
    rfl

/-- A step whose write may succeed means to write nothing and leaves the registry as it was, or it has one draft, and
without a directory at the place of the file that is what stands there in the end. -/
theorem carryOut_drafts (call : Call) (now : Instant) (r : Registry) :
    (((Step.mk call now none).carryOut r).drafts = [] ∧ ((Step.mk call now none).carryOut r).registry = r) ∨
      ∃ text, ((Step.mk call now none).carryOut r).drafts = [text] ∧
        (r.place ≠ .directory → ((Step.mk call now none).carryOut r).registry.place = .text text) := by
  rcases carryOut_cases ⟨call, now, none⟩ r with ⟨e, same⟩ | ⟨-, -, -, same⟩ | ⟨reply, next, -, attempt, events, same⟩
  · rw [same]
    exact .inl ⟨rfl, rfl⟩
  · rw [same]
    exact .inl ⟨rfl, rfl⟩
  · rw [same]
    refine .inr ⟨ProxyFile.render r.middleware (next.liveRanges now) now, ?_⟩
    cases stands : r.place with
    | directory => simp [Registry.commit, Place.write, stands]
    | missing => simp [Registry.commit, Place.write, stands]
    | text contents => simp [Registry.commit, Place.write, stands]

/-- A call does to a registry in tune with its file what a step with some outcome of its write does. What stands at the
path of the file is then what the step says, if the directory for the file was there. -/
theorem carryOut_refines (call : Call) (now : Instant) {s : Storage} (tune : s.InTune) :
    ∃ fault, (s.carryOut call now).1 = (Step.mk call now fault).carryOut s.registry ∧
      (s.carryOut call now).2.InTune ∧ (s.carryOut call now).2.path = s.path ∧
      Keeps s.tree (s.carryOut call now).2.tree ∧
      (Ready s.path s.tree →
        (s.carryOut call now).2.registry = ((Step.mk call now fault).carryOut s.registry).registry) := by
  rw [carryOut_eq]
  rcases carryOut_drafts call now s.registry with ⟨quiet, same⟩ | ⟨text, drafts, put⟩
  · rw [change_quiet quiet]
    refine ⟨none, rfl, rfl, rfl, Keeps.refl s.tree, fun _ => ?_⟩
    rw [same, ← tune]
  · have keeps := putInPlace_keeps s.path text s.tree
    cases ends : (putInPlace s.path text s.tree).1 with
    | none =>
      rw [change_done drafts ends]
      refine ⟨none, rfl, rfl, rfl, keeps, fun _ => ?_⟩
      obtain ⟨stands, free⟩ := putInPlace_done ends
      rw [stands, ← put (by rwa [tune])]
    | some failure =>
      obtain ⟨failed, p⟩ := failure
      rw [change_failed drafts ends]
      refine ⟨some { step := failed }, rfl, rfl, rfl, keeps, fun ready => ?_⟩
      rw [putInPlace_failed (by simp [ends]) (.inl ready), registry_of_fault, ← tune]

/-! ### Runs -/

/-- The registry and its tree after a run, whose latest call stands first. -/
def after (s : Storage) : List (Call × Instant) → Storage
  | [] => s
  | (call, now) :: past => ((s.after past).carryOut call now).2

/-- After any run on a tree in which the directory for the file is there, the registry is what it is after a run whose
writes have ended in some way, and it knows what stands at the path of its file. -/
theorem after_refines {s : Storage} (tune : s.InTune) (ready : Ready s.path s.tree) (past : List (Call × Instant)) :
    ∃ steps : List Step, steps.map (fun step => (step.call, step.now)) = past ∧
      (s.after past).registry = s.registry.after steps ∧ (s.after past).InTune ∧
      (s.after past).path = s.path ∧ Keeps s.tree (s.after past).tree := by
  induction past with
  | nil => exact ⟨[], rfl, rfl, tune, rfl, Keeps.refl s.tree⟩
  | cons latest past ih =>
    obtain ⟨call, now⟩ := latest
    obtain ⟨steps, calls, registry, tune, path, keeps⟩ := ih
    obtain ⟨fault, -, tune', path', keeps', same⟩ := carryOut_refines call now tune
    have there : Ready (s.after past).path (s.after past).tree := by
      rw [path]
      exact ready.keeps keeps
    refine ⟨⟨call, now, fault⟩ :: steps, by rw [List.map_cons, calls], ?_, tune', path'.trans path,
      keeps.trans keeps'⟩
    rw [Registry.after, ← registry]
    exact same there

/-- What stands at the path of the file after a run is what a run of the registry alone says: whatever holds of the
place of a registry holds of the file in the tree. -/
theorem file_after {middleware : String} {path : Path.Text} {tree : Tree} {opening : Instant} {s : Storage}
    (opened : open? middleware path tree opening = .ok s) (ready : Ready path tree) (past : List (Call × Instant)) :
    ∃ steps : List Step, steps.map (fun step => (step.call, step.now)) = past ∧
      (s.after past).registry = s.registry.after steps ∧
      Place.at path (s.after past).tree = (s.registry.after steps).place := by
  obtain ⟨tune, rfl, rfl⟩ := open?_inTune opened
  obtain ⟨steps, calls, registry, tune', same, -⟩ := after_refines tune ready past
  refine ⟨steps, calls, registry, ?_⟩
  rw [← registry, tune', same]

end Storage

end HostControl.Access
