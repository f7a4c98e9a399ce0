/-
Module: HostControl.Table
Purpose: Finite tables from keys to values, kept in the order in which the keys came.
Main exports: Table, Table.find?, Table.set, Table.erase, Table.keys
-/

namespace HostControl

/-- Entries with a key each. The operations keep the keys distinct. -/
abbrev Table (κ α : Type) := List (κ × α)

namespace Table

variable {κ α : Type} [DecidableEq κ]

/-- The value under a key. -/
def find? (key : κ) : Table κ α → Option α
  | [] => none
  | (k, v) :: rest => if k = key then some v else find? key rest

/-- Puts a value under a key: in place if the key is there, else at the end. -/
def set (key : κ) (value : α) : Table κ α → Table κ α
  | [] => [(key, value)]
  | (k, v) :: rest => if k = key then (key, value) :: rest else (k, v) :: set key value rest

/-- Takes a key out. -/
def erase (key : κ) : Table κ α → Table κ α
  | [] => []
  | (k, v) :: rest => if k = key then rest else (k, v) :: erase key rest

def keys (t : Table κ α) : List κ := t.map (·.1)

/-- Whether a key is there. -/
def has (key : κ) (t : Table κ α) : Bool := (find? key t).isSome

@[simp] theorem find?_nil (key : κ) : find? key ([] : Table κ α) = none := rfl

theorem find?_set_self (key : κ) (value : α) (t : Table κ α) :
    find? key (set key value t) = some value := by
  induction t with
  | nil => simp [set, find?]
  | cons e rest ih =>
    obtain ⟨k, v⟩ := e
    by_cases h : k = key <;> simp [set, find?, h, ih]

theorem find?_set_ne {key other : κ} (h : other ≠ key) (value : α) (t : Table κ α) :
    find? other (set key value t) = find? other t := by
  induction t with
  | nil => simp [set, find?, Ne.symm h]
  | cons e rest ih =>
    obtain ⟨k, v⟩ := e
    by_cases hk : k = key
    · subst hk
      simp [set, find?, Ne.symm h]
    · by_cases ho : k = other
      · subst ho
        simp [set, find?, hk]
      · simp [set, find?, hk, ho, ih]

theorem find?_eq_none_iff {key : κ} {t : Table κ α} : find? key t = none ↔ key ∉ keys t := by
  induction t with
  | nil => simp [keys]
  | cons e rest ih =>
    obtain ⟨k, v⟩ := e
    by_cases h : k = key
    · simp [find?, keys, h]
    · simp only [find?, h, if_false, ih, keys, List.map_cons, List.mem_cons, not_or]
      exact ⟨fun hm => ⟨Ne.symm h, hm⟩, fun hm => hm.2⟩

/-- A new key comes last, and a known one keeps its place. -/
theorem keys_set (key : κ) (value : α) (t : Table κ α) :
    keys (set key value t) = if key ∈ keys t then keys t else keys t ++ [key] := by
  induction t with
  | nil => simp [set, keys]
  | cons e rest ih =>
    obtain ⟨k, v⟩ := e
    by_cases h : k = key
    · subst h
      simp [set, keys]
    · have hk : key ≠ k := Ne.symm h
      simp only [set, h, if_false, keys, List.map_cons, List.mem_cons, hk, false_or]
      have : List.map (·.1) (set key value rest) = keys (set key value rest) := rfl
      rw [this, ih]
      by_cases hm : key ∈ keys rest
      · have hm' : key ∈ List.map (·.1) rest := hm
        simp [hm', keys]
      · have hm' : key ∉ List.map (·.1) rest := hm
        simp [hm', keys]

theorem erase_sublist (key : κ) (t : Table κ α) : (erase key t).Sublist t := by
  induction t with
  | nil => exact .refl _
  | cons e rest ih =>
    obtain ⟨k, v⟩ := e
    by_cases own : k = key
    · rw [erase, if_pos own]
      exact List.sublist_cons_self _ _
    · rw [erase, if_neg own]
      exact ih.cons_cons _

/-! ### Tables with distinct keys -/

omit [DecidableEq κ] in
theorem mem_keys {key : κ} {value : α} {t : Table κ α} (member : (key, value) ∈ t) : key ∈ t.keys :=
  List.mem_map_of_mem (f := Prod.fst) member

theorem mem_of_find? {key : κ} {value : α} {t : Table κ α} (found : find? key t = some value) :
    (key, value) ∈ t := by
  induction t with
  | nil => cases found
  | cons e rest ih =>
    obtain ⟨k, v⟩ := e
    by_cases h : k = key
    · subst h
      simp only [find?, if_true, Option.some.injEq] at found
      subst found
      exact List.mem_cons_self
    · simp only [find?, h, if_false] at found
      exact List.mem_cons_of_mem _ (ih found)

theorem find?_of_mem {key : κ} {value : α} {t : Table κ α} (distinct : t.keys.Nodup)
    (member : (key, value) ∈ t) : find? key t = some value := by
  induction t with
  | nil => cases member
  | cons e rest ih =>
    obtain ⟨k, v⟩ := e
    obtain ⟨fresh, others⟩ := List.nodup_cons.1 distinct
    rcases List.mem_cons.1 member with same | later
    · cases same
      simp [find?]
    · have other : k ≠ key := fun same => fresh (same ▸ mem_keys later)
      simp only [find?, other, if_false]
      exact ih others later

theorem find?_eq_some_iff {key : κ} {value : α} {t : Table κ α} (distinct : t.keys.Nodup) :
    find? key t = some value ↔ (key, value) ∈ t := ⟨mem_of_find?, find?_of_mem distinct⟩

/-- A look-up does not depend on the order in which the keys came. -/
theorem find?_eq_of_perm {key : κ} {t u : Table κ α} (distinct : t.keys.Nodup) (same : t.Perm u) :
    find? key t = find? key u := by
  apply Option.ext
  intro value
  have distinct' : u.keys.Nodup := (same.map Prod.fst).nodup_iff.1 distinct
  rw [find?_eq_some_iff distinct, find?_eq_some_iff distinct', same.mem_iff]

theorem erase_eq_filter {key : κ} {t : Table κ α} (distinct : t.keys.Nodup) :
    erase key t = t.filter fun e => e.1 ≠ key := by
  induction t with
  | nil => rfl
  | cons e rest ih =>
    obtain ⟨k, v⟩ := e
    obtain ⟨fresh, others⟩ := List.nodup_cons.1 distinct
    by_cases h : k = key
    · subst h
      have none_of_it : ∀ e ∈ rest, e.1 ≠ k := fun e member same =>
        fresh (same ▸ mem_keys (show (e.1, e.2) ∈ rest from member))
      simpa [erase] using (List.filter_eq_self.2 fun e member => decide_eq_true (none_of_it e member)).symm
    · simp [erase, h, ih others]

/-- A look-up in the entries that were kept finds what was found before, if that was kept. -/
theorem find?_filter {t : Table κ α} (distinct : t.keys.Nodup) (keep : κ × α → Bool) (key : κ) :
    find? key (t.filter keep) = (find? key t).filter fun value => keep (key, value) := by
  have fewer : (Table.keys (t.filter keep)).Nodup := distinct.sublist (List.filter_sublist.map _)
  apply Option.ext
  intro value
  rw [find?_eq_some_iff fewer, List.mem_filter, Option.filter_eq_some_iff, find?_eq_some_iff distinct]

/-- A table with a key put in holds that entry and the entries of the other keys. -/
theorem set_perm (key : κ) (value : α) (t : Table κ α) :
    (set key value t).Perm ((key, value) :: erase key t) := by
  induction t with
  | nil => exact .refl _
  | cons e rest ih =>
    obtain ⟨k, v⟩ := e
    by_cases h : k = key
    · simp [set, erase, h]
    · simp only [set, erase, h, if_false]
      exact (ih.cons _).trans (.swap _ _ _)

end Table

end HostControl
