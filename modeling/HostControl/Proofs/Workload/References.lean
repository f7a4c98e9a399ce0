/-
Module: HostControl.Proofs.Workload.References
Purpose: What a text that refers to a container becomes in the path of a request to the runtime. What is handed on is
  the text without the blanks around it and the slashes in front, it is one segment, and every other text is refused
  before any call. The segment keeps its place in the path, unless it is one dot or two: these are handed on too, and
  are taken out of the path when its address is normalised.
Main exports: RuntimeCall.id?, reference_eq_ok_iff, reference_of_reference, InPlace, inPlace_of_reference, HandsOn,
  references_keep_place, dots_leave_place
-/
import HostControl.Proofs.Net.Paths
import HostControl.Proofs.Workload.Operations
import HostControl.Workload.Engine

namespace HostControl.Workload

open Text

/-- The container that a call is about. -/
def RuntimeCall.id? : RuntimeCall → Option String
  | .inspect id | .start id | .stop id _ | .restart id _ | .logs id _ | .stats id => some id
  | .list _ | .images | .networks | .volumes | .info | .ping => none

/-! ### References -/

/-- A text refers to the container of its name exactly if it comes to that name, which is not empty and has no other
characters than those of names and ids. -/
theorem reference_eq_ok_iff {id name : String} :
    reference id = .ok name ↔
      name.toList = cleaned id ∧ cleaned id ≠ [] ∧ ∀ c ∈ cleaned id, isReferenceChar c = true := by
  unfold reference
  cases text : cleaned id with
  | nil => simp
  | cons c cs =>
      by_cases allowed : (c :: cs).all isReferenceChar = true
      · simp only [List.isEmpty_cons, Bool.false_eq_true, if_false, if_pos allowed, Except.ok.injEq]
        constructor
        · rintro rfl
          exact ⟨String.toList_ofList, by simp, List.all_eq_true.1 allowed⟩
        · rintro ⟨same, _, _⟩
          rw [← same, String.ofList_toList]
      · simp only [List.isEmpty_cons, Bool.false_eq_true, if_false, if_neg allowed, reduceCtorEq, false_iff]
        exact fun fits => allowed (List.all_eq_true.2 fits.2.2)

/-- A text is accepted exactly if it is not empty and has permitted characters only, once it is cleaned. -/
theorem exists_reference_iff {id : String} :
    (∃ name, reference id = .ok name) ↔ cleaned id ≠ [] ∧ ∀ c ∈ cleaned id, isReferenceChar c = true := by
  constructor
  · rintro ⟨name, accepted⟩
    exact (reference_eq_ok_iff.1 accepted).2
  · intro fits
    exact ⟨String.ofList (cleaned id), reference_eq_ok_iff.2 ⟨String.toList_ofList, fits⟩⟩

/-- Every other text is refused as none. -/
theorem reference_error {id : String} {e : Error} (refused : reference id = .error e) :
    ∃ text, e = .validation text := by
  unfold reference at refused
  dsimp only at refused
  split at refused
  · exact ⟨_, (Except.error.inj refused).symm⟩
  · split at refused
    · cases refused
    · exact ⟨_, (Except.error.inj refused).symm⟩

/-- Names and ids are of ASCII, so that what is true of their characters is seen from a table. -/
theorem of_isReferenceChar {p : Char → Prop}
    (each : ∀ n < 128, isReferenceChar (Char.ofNat n) = true → p (Char.ofNat n)) {c : Char}
    (allowed : isReferenceChar c = true) : p c := by
  have low : c.toNat < 128 := by
    simp only [isReferenceChar, Bool.or_eq_true, Bool.and_eq_true, decide_eq_true_eq, beq_iff_eq] at allowed
    rcases allowed with ((((upper | lower) | digit) | rfl) | rfl) | rfl
    · omega
    · omega
    · omega
    all_goals decide
  have found := each c.toNat low
  rw [Char.ofNat_toNat] at found
  exact found allowed

/-- They may stand in a segment of a path as they are. -/
theorem plain_of_isReferenceChar {c : Char} (allowed : isReferenceChar c = true) :
    Url.isPathChar c = true ∧ c ≠ '/' ∧ c ≠ '\\' :=
  of_isReferenceChar (p := fun c => Url.isPathChar c = true ∧ c ≠ '/' ∧ c ≠ '\\') (by decide +kernel) allowed

theorem ne_percent_of_isReferenceChar {c : Char} (allowed : isReferenceChar c = true) : c ≠ '%' :=
  of_isReferenceChar (p := (· ≠ '%')) (by decide +kernel) allowed

/-- Nothing that follows a path begins with one of them. -/
theorem not_endsPath_of_isReferenceChar {c : Char} (allowed : isReferenceChar c = true) : c ≠ '?' ∧ c ≠ '#' :=
  of_isReferenceChar (p := fun c => c ≠ '?' ∧ c ≠ '#') (by decide +kernel) allowed

theorem isBlank_of_isReferenceChar {c : Char} (allowed : isReferenceChar c = true) : isBlank c = false :=
  of_isReferenceChar (p := (isBlank · = false)) (by decide +kernel) allowed

theorem dropWhile_of_none {p : Char → Bool} {cs : List Char} (none : ∀ c ∈ cs, p c = false) : cs.dropWhile p = cs :=
  List.dropWhile_eq_self_iff.2 fun some => by simp [none _ (List.getElem_mem some)]

/-- A name that a text refers to is cleaned already, and refers to itself. -/
theorem reference_of_reference {id name : String} (accepted : reference id = .ok name) :
    cleaned name = name.toList ∧ reference name = .ok name := by
  obtain ⟨spelled, some, allowed⟩ := reference_eq_ok_iff.1 accepted
  rw [← spelled] at some allowed
  have solid : ∀ c ∈ name.toList, isBlank c = false := fun c within => isBlank_of_isReferenceChar (allowed c within)
  have bare : ∀ c ∈ name.toList, (c == '/') = false :=
    fun c within => beq_eq_false_iff_ne.2 (plain_of_isReferenceChar (allowed c within)).2.1
  have same : cleaned name = name.toList := by
    rw [cleaned, trimChars, dropWhile_of_none solid,
      dropWhile_of_none fun c within => solid c (List.mem_reverse.1 within), List.reverse_reverse,
      dropWhile_of_none bare]
  rw [reference_eq_ok_iff, same]
  exact ⟨rfl, rfl, some, allowed⟩

/-! ### Places in a path -/

/-- A text that is one segment of a path, stands for no dots, and keeps its place when the path is normalised. -/
structure InPlace (segment : List Char) : Prop where
  some : segment ≠ []
  bare : ∀ c ∈ segment, c ≠ '/' ∧ c ≠ '%' ∧ c ≠ '?' ∧ c ≠ '#' ∧ isBlank c = false
  dot : segment ≠ ['.']
  dots : segment ≠ ['.', '.']
  keeps : Url.KeepsPlace segment

section Names
variable {id name : String} (accepted : reference id = .ok name)
include accepted

/-- The characters of a name may stand in a path, and nothing in it is encoded. -/
theorem plainText_of_reference : Url.PlainText name.toList ∧ Url.withDots name.toList = name.toList := by
  obtain ⟨spelled, _, allowed⟩ := reference_eq_ok_iff.1 accepted
  rw [← spelled] at allowed
  refine ⟨fun c within => plain_of_isReferenceChar (allowed c within), Url.withDots_of_not_mem fun encoded => ?_⟩
  exact ne_percent_of_isReferenceChar (allowed '%' encoded) rfl

/-- Every name but one dot and two has its place in a path. -/
theorem inPlace_of_reference (dot : name.toList ≠ ['.']) (dots : name.toList ≠ ['.', '.']) : InPlace name.toList := by
  obtain ⟨text, written⟩ := plainText_of_reference accepted
  obtain ⟨spelled, some, allowed⟩ := reference_eq_ok_iff.1 accepted
  rw [← spelled] at some allowed
  have plain : Url.Plain name.toList := ⟨text, by rwa [written], by rwa [written]⟩
  refine ⟨some, fun c within => ?_, dot, dots, plain.keepsPlace⟩
  have permitted := allowed c within
  obtain ⟨_, slash, _⟩ := plain_of_isReferenceChar permitted
  obtain ⟨question, number⟩ := not_endsPath_of_isReferenceChar permitted
  exact ⟨slash, ne_percent_of_isReferenceChar permitted, question, number, isBlank_of_isReferenceChar permitted⟩

theorem inPlace_or_dots : InPlace name.toList ∨ name = "." ∨ name = ".." := by
  by_cases dot : name = "."
  · exact .inr (.inl dot)
  by_cases dots : name = ".."
  · exact .inr (.inr dots)
  refine .inl (inPlace_of_reference accepted ?_ ?_)
  · exact fun same => dot (String.toList_inj.1 same)
  · exact fun same => dots (String.toList_inj.1 same)

/-- Names of dots have no place in a path. -/
theorem not_keepsPlace_of_reference (dots : name.toList = ['.'] ∨ name.toList = ['.', '.']) :
    ¬Url.KeepsPlace name.toList := by
  obtain ⟨text, written⟩ := plainText_of_reference accepted
  exact Url.not_keepsPlace_of_dots text (by rwa [written])

end Names

/-! ### Operations -/

/-- The call of an operation on a container is about its target. -/
theorem Task.id?_call {t : Task} {id : String} (refers : t.id? = some id) (config : Config.Docker) (target : String) :
    (t.call config target).id? = some target := by
  cases t with
  | describe | start | stop | restart | logs | stats => rfl
  | list | platform | images | networks | volumes | info | ping => cases refers

/-- An operation was refused as one on no container, before any call and without a record. -/
def Run.TurnedDown {α : Type} (run : Run α) : Prop :=
  ∃ text, run.result = .error (.validation text) ∧ run.calls = [] ∧ run.events = []

/-- How an operation hands on the text by which it refers to a container. -/
structure HandsOn (config : Config.Docker) (t : Task) (id : String) (run : Run t.Value) : Prop where
  checked : (∃ name, reference id = .ok name) ↔ cleaned id ≠ [] ∧ ∀ c ∈ cleaned id, isReferenceChar c = true
  accepted : ∀ name, reference id = .ok name →
    run.calls = [t.call config name] ∧ (t.call config name).id? = some name ∧ name.toList = cleaned id ∧
      cleaned name = name.toList ∧ reference name = .ok name ∧ (InPlace name.toList ∨ name = "." ∨ name = "..")
  refused : (∀ name, reference id ≠ .ok name) → run.TurnedDown
  misplaced : ¬InPlace (cleaned id) → cleaned id ≠ ['.'] → cleaned id ≠ ['.', '.'] → run.TurnedDown
  astray : cleaned id = ['.'] ∨ cleaned id = ['.', '.'] →
    run.calls = [t.call config (String.ofList (cleaned id))] ∧ ¬Url.KeepsPlace (cleaned id)

/-- What an operation on a container does, by whether its text refers to one. -/
theorem carryOut_of_reference (config : Config.Docker) (rt : Runtime) (clock : Clock) {t : Task} {id : String}
    (refers : t.id? = some id) :
    (∀ name, reference id = .ok name → (t.carryOut rt clock (.of config)).calls = [t.call config name]) ∧
    ((∀ name, reference id ≠ .ok name) → (t.carryOut rt clock (.of config)).TurnedDown) := by
  have about : t.target = reference id := by rw [Task.target, refers]
  cases t.carryOut_faithful config rt clock with
  | refused e rejected told calls events took =>
      rw [about] at rejected
      refine ⟨fun name accepted => ?_, fun _ => ?_⟩
      · rw [rejected] at accepted
        cases accepted
      · obtain ⟨text, rfl⟩ := reference_error rejected
        exact ⟨text, told, calls, events⟩
  | called target told accepted calls timer ends result events =>
      rw [about] at accepted
      refine ⟨fun name known => ?_, fun none => absurd accepted (none target)⟩
      rw [accepted] at known
      rwa [← Except.ok.inj known]

/-- For every operation on a container and every text that it refers to one by, whatever the runtime answers.

Where the text is accepted, the runtime is called once, for the text without the blanks around it and the slashes in
front, which would be accepted again as it is; it is one segment that keeps its place in every path, unless it is one
dot or two. A text of any other shape is refused before any call. Dots are handed on, and do not keep their place. -/
theorem references_keep_place (config : Config.Docker) (rt : Runtime) (clock : Clock) {t : Task} {id : String}
    (refers : t.id? = some id) : HandsOn config t id (t.carryOut rt clock (.of config)) := by
  obtain ⟨called, refused⟩ := carryOut_of_reference config rt clock refers
  refine { checked := exists_reference_iff, accepted := ?accepted, refused, misplaced := ?misplaced, astray := ?astray }
  case accepted =>
    intro name accepted
    obtain ⟨same, again⟩ := reference_of_reference accepted
    exact ⟨called name accepted, Task.id?_call refers config name, (reference_eq_ok_iff.1 accepted).1, same, again,
      inPlace_or_dots accepted⟩
  case misplaced =>
    intro unplaced dot dots
    refine refused fun name accepted => unplaced ?_
    rw [← (reference_eq_ok_iff.1 accepted).1] at dot dots ⊢
    exact inPlace_of_reference accepted dot dots
  case astray =>
    intro dots
    have accepted : reference id = .ok (String.ofList (cleaned id)) := by
      rw [reference_eq_ok_iff, String.toList_ofList]
      have allowed : isReferenceChar '.' = true := by decide
      rcases dots with dot | dots
      · simp [dot, allowed]
      · simp [dots, allowed]
    have strays := not_keepsPlace_of_reference accepted
    rw [String.toList_ofList] at strays
    exact ⟨called _ accepted, strays dots⟩

/-- A text with a blank and slashes in front of the name. -/
theorem references_keep_place_slashes :
    let task := Task.stop ⟨"ops", none, none, "c-1"⟩ " //harbor-api" none
    let run := task.carryOut Engine.unreachable ⟨default, 0⟩ (.of {})
    task.id? = some " //harbor-api" ∧ HandsOn {} task " //harbor-api" run ∧
      run.calls = [.stop "harbor-api" (Span.ofSeconds 10)] ∧ InPlace "harbor-api".toList := by
  intro task run
  have handsOn : HandsOn {} task " //harbor-api" run := references_keep_place {} Engine.unreachable ⟨default, 0⟩ rfl
  obtain ⟨calls, _, _, _, _, inPlace⟩ := handsOn.accepted "harbor-api" (by decide)
  exact ⟨rfl, handsOn, calls, inPlace.resolve_right (by decide)⟩

/-- Two dots are handed on, and the request to start that container names no container. -/
theorem dots_leave_place :
    ((Task.start ⟨"ops", none, none, "c-1"⟩ "..").carryOut Engine.unreachable ⟨default, 0⟩ (.of {})).calls =
      [.start ".."] ∧
    ¬InPlace "..".toList ∧
    Url.normalised "/containers/../start".toList = some ["start".toList] :=
  ⟨rfl, fun placed => placed.dots rfl, by decide⟩

end HostControl.Workload
