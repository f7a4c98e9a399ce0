/-
Module: HostControl.Proofs.Files.Growth
Purpose: New directories only add to a tree: what could be read is still read, and a directory that is there does not
  have to be made.
Main exports: Grows, makeDirectories_grows, read_grows, makeDirectories_of_holdsDirectory
-/
import HostControl.Proofs.Files.Tree

namespace HostControl.Tree

open Text (parts)

variable {t u v : Tree} {place p begins : Steps} {ps : List Path.Text} {path : Path.Text}

/-! ### New directories -/

/-- What stands in one tree stands in another one too. -/
structure Grows (t u : Tree) : Prop where
  current : u.current = t.current
  stays : ∀ p node, t.node? p = some node → u.node? p = some node

theorem Grows.refl (t : Tree) : Grows t t := ⟨rfl, fun _ _ stands => stands⟩

theorem Grows.trans (first : Grows t u) (second : Grows u v) : Grows t v :=
  ⟨second.current.trans first.current, fun p node stands => second.stays p node (first.stays p node stands)⟩

theorem Grows.keeps (grows : Grows t u) : Keeps t u := ⟨grows.current, fun p => grows.stays p .directory⟩

theorem makeDirectory_grows (made : t.makeDirectory path = .ok u) : Grows t u := by
  rw [makeDirectory] at made
  cases starts : t.start path with
  | error e => simp [starts] at made
  | ok begins =>
    simp only [starts] at made
    generalize ((parts '/' path).reverse.dropWhile (· = [])).reverse = ps at made
    split at made
    · cases made
    · cases made
    · next d name located =>
      split_ifs at made with taken
      cases made
      obtain ⟨front, last, rfl⟩ := (List.eq_nil_or_concat ps).resolve_left (by rintro rfl; cases located)
      rw [List.concat_eq_append] at located
      obtain ⟨-, there, -⟩ := locateParts_iff.1 located
      have alters : Alters (d ++ [name]) t (t.put (d ++ [name]) .directory) :=
        put_alters _ (by rw [List.dropLast_concat, there]; rfl)
      -- The one place that is altered held nothing.
      refine ⟨rfl, fun p node stands => ?_⟩
      rw [alters.elsewhere p, stands]
      rintro rfl
      simp [stands] at taken

theorem makeEach_grows (paths : List Path.Text) (t : Tree) : Grows t (makeEach paths t).2 := by
  induction paths generalizing t with
  | nil => exact Grows.refl t
  | cons path above ih =>
    rw [makeEach]
    cases made : t.makeDirectory path with
    | ok u => exact makeDirectory_grows made
    | error e =>
      cases e with
      | refused => exact Grows.refl t
      | missing =>
        have first := ih t
        simp only
        split_ifs
        · exact first
        · cases again : (makeEach above t).2.makeDirectory path with
          | ok u => exact first.trans (makeDirectory_grows again)
          | error e => exact first

theorem makeDirectories_grows (path : Path.Text) (t : Tree) : Grows t (t.makeDirectories path).2 :=
  makeEach_grows (Path.ancestors path) t

/-! ### What is read in a tree that grows -/

/-- Whatever a part leads to is there. -/
theorem isSome_of_step {part : Path.Text} (led : t.step place part = .ok p) : (t.node? p).isSome = true := by
  have begins := directory_of_step led
  rw [step_of_directory begins] at led
  split_ifs at led with idle up long there
  · cases led
    rw [begins]
    rfl
  · cases led
    exact isSome_of_below (List.dropLast_prefix place) (by rw [begins]; rfl)
  · cases led
    exact there

theorem isSome_of_walk (there : (t.node? place).isSome = true) (led : t.walk place ps = .ok p) :
    (t.node? p).isSome = true := by
  induction ps generalizing place with
  | nil =>
    cases led
    exact there
  | cons part ps ih =>
    rw [walk] at led
    cases stepped : t.step place part with
    | error e => simp [stepped] at led
    | ok next =>
      rw [stepped] at led
      exact ih (isSome_of_step stepped) led

theorem isSome_of_start (starts : t.start path = .ok begins) : (t.node? begins).isSome = true := by
  rw [isSome_node?_iff, leads_iff, start_eq starts]
  split_ifs
  · exact .inl List.nil_prefix
  · exact .inl (List.prefix_refl t.current)

/-- A part that leads to nothing that is missing leads where it led when there is more. -/
theorem step_grows {part : Path.Text} (grows : Grows t u) (there : (t.node? place).isSome = true)
    (found : t.step place part ≠ .error .missing) : u.step place part = t.step place part := by
  obtain ⟨node, stands⟩ := Option.isSome_iff_exists.1 there
  cases node with
  | directory =>
    rw [step_of_directory stands] at found ⊢
    rw [step_of_directory (grows.stays place .directory stands)]
    split_ifs at found ⊢ with idle up long grown known known
    · rfl
    · rfl
    · rfl
    · rfl
    · exact absurd rfl found
    · obtain ⟨node, stands⟩ := Option.isSome_iff_exists.1 known
      simp [grows.stays _ node stands] at grown
    · exact absurd rfl found
  | file contents =>
    have stops (v : Tree) (stands : v.node? place = some (.file contents)) : v.step place part = .error .refused := by
      rw [step, isDirectory, stands]
      rfl
    rw [stops t stands, stops u (grows.stays place _ stands)]

theorem walk_grows (grows : Grows t u) (there : (t.node? place).isSome = true)
    (found : t.walk place ps ≠ .error .missing) : u.walk place ps = t.walk place ps := by
  induction ps generalizing place with
  | nil => rfl
  | cons part ps ih =>
    rw [walk] at found ⊢
    rw [walk]
    cases stepped : t.step place part with
    | error e =>
      rw [stepped] at found
      rw [step_grows grows there (by rw [stepped]; exact found), stepped]
    | ok next =>
      rw [stepped] at found
      rw [step_grows grows there (by simp [stepped]), stepped]
      exact ih (isSome_of_step stepped) found

/-- What is read at a path does not change when directories are made, unless nothing could be read there. -/
theorem read_grows (grows : Grows t u) (there : t.read path ≠ .error .missing) : u.read path = t.read path := by
  have begun := start_congr grows.current path
  cases starts : t.start path with
  | error e => rw [read, read, resolve, resolve, begun, starts]
  | ok begins =>
    have exist := isSome_of_start starts
    have follows (v : Tree) (starts : v.start path = .ok begins) :
        v.resolve path = v.walk begins (parts '/' path) := by rw [resolve, starts]
    have found : t.walk begins (parts '/' path) ≠ .error .missing := by
      intro missing
      rw [read, follows t starts, missing] at there
      exact there rfl
    have walked := walk_grows grows exist found
    rw [read, read, follows t starts, follows u (begun.trans starts), walked]
    cases led : t.walk begins (parts '/' path) with
    | error e => rfl
    | ok place =>
      obtain ⟨node, stands⟩ := Option.isSome_iff_exists.1 (isSome_of_walk exist led)
      simp only [stands, grows.stays place node stands]

/-! ### Directories that are there -/

/-- A way that can be followed has a target, and if it is a name something stands there. -/
theorem locateParts_of_walk (led : t.walk begins ps = .ok place) :
    (∃ p, t.locateParts begins ps = .ok (.directory p)) ∨
      ∃ directory name, t.locateParts begins ps = .ok (.name directory name) ∧ directory ++ [name] = place := by
  rcases List.eq_nil_or_concat ps with rfl | ⟨front, last, rfl⟩
  · exact .inl ⟨begins, rfl⟩
  · rw [List.concat_eq_append] at led ⊢
    rw [walk_append] at led
    cases before : t.walk begins front with
    | error e => simp [before, Except.bind] at led
    | ok d =>
      simp only [before, Except.bind, walk] at led
      cases stepped : t.step d last with
      | error e => simp [stepped] at led
      | ok next =>
        rw [stepped] at led
        cases led
        have there := directory_of_step stepped
        rw [step_of_directory there] at stepped
        simp only [locateParts, List.getLast?_concat, List.dropLast_concat, before, isDirectory_iff.2 there,
          Bool.not_true, Bool.false_eq_true, if_false]
        split_ifs at stepped ⊢
        · exact .inl ⟨d, rfl⟩
        · exact .inl ⟨d.dropLast, rfl⟩
        · cases stepped
          exact .inr ⟨d, last, rfl, rfl⟩

theorem makeDirectory_of_holdsDirectory (holds : t.holdsDirectory path = true) :
    t.makeDirectory path = .error .refused := by
  obtain ⟨blanks, divided⟩ : ((parts '/' path).reverse.dropWhile (· = [])).reverse <+: parts '/' path :=
    List.rdropWhile_prefix _ _
  rw [holdsDirectory, resolve, ← divided] at holds
  rw [makeDirectory]
  cases starts : t.start path with
  | error e => simp [starts] at holds
  | ok begins =>
    simp only [starts] at holds ⊢
    generalize ((parts '/' path).reverse.dropWhile (· = [])).reverse = ps at holds ⊢
    cases led : t.walk begins ps with
    | error e => simp [walk_append, led, Except.bind] at holds
    | ok place =>
      rcases locateParts_of_walk led with ⟨p, located⟩ | ⟨directory, name, located, there⟩
      · rw [located]
      · rw [located]
        exact if_pos (there ▸ isSome_of_walk (isSome_of_start starts) led)

/-- A directory that is there does not have to be made. -/
theorem makeDirectories_of_holdsDirectory (holds : t.holdsDirectory path = true) :
    t.makeDirectories path = (true, t) := by
  have some : path ≠ [] := by
    rintro rfl
    simp [holdsDirectory, resolve, start] at holds
  have first : ∃ above, Path.ancestors path = path :: above := by
    rw [Path.ancestors, Path.ancestorsWithin, if_neg some]
    split
    · exact ⟨_, rfl⟩
    · exact ⟨_, rfl⟩
  obtain ⟨above, first⟩ := first
  rw [makeDirectories, first, makeEach, makeDirectory_of_holdsDirectory holds]
  simp only [holds]

end HostControl.Tree
