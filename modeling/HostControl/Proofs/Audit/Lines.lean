/-
Module: HostControl.Proofs.Audit.Lines
Purpose: One record, one line. Whatever texts and values events hold, the text that a trail has written is divided at
  its line ends into one line for each record, in order, and each line gives back the whole event: no text in an event
  can end its record early, add a record or a field, or hide what follows.
Main exports: Act, recorded, Sink.Works, written_after, Event.Whole, readBack, readBack_toJson, Tells,
  parts_text, trail_lines_tell
-/
import HostControl.Audit.Trail
import HostControl.Json.Fields
import HostControl.Proofs.Json.Reading
import HostControl.Proofs.Text.Parts
import Mathlib.Data.List.Forall2

namespace HostControl.Audit

/-! ### What is written -/

/-- What can be done with a trail. -/
inductive Act where
  | record (r : Record)
  | sync

/-- The trail after acts. -/
def Trail.after (t : Trail) : List Act → Trail
  | [] => t
  | .record r :: later => (t.record r).after later
  | .sync :: later => t.sync.after later

/-- The records among acts, in order. -/
def recorded : List Act → List Record
  | [] => []
  | .record r :: later => r :: recorded later
  | .sync :: later => recorded later

/-- A sink that takes all that acts record: a text does so always, a file until it is synced. -/
def Sink.Works (acts : List Act) : Sink → Prop
  | .lines => True
  | .file => ∀ before later, acts = before ++ .sync :: later → recorded later = []
  | .broken | .logOnly => False

namespace Trail

variable {t : Trail} {acts : List Act}

theorem written_sync (t : Trail) : t.sync.written = t.written := by
  unfold sync
  split <;> rfl

theorem sink_record (r : Record) (t : Trail) : (t.record r).sink = t.sink := by
  unfold record
  split <;> rfl

theorem ended_record (r : Record) (t : Trail) : (t.record r).ended = t.ended := by
  unfold record
  split <;> rfl

/-- What a trail takes goes to the end of what was written. -/
theorem written_record (takes : t.takes = true) (r : Record) : (t.record r).written = t.written ++ [r] := by
  rw [record, if_pos takes]

theorem written_of_silent (silent : recorded acts = []) : (t.after acts).written = t.written := by
  induction acts generalizing t with
  | nil => rfl
  | cons act later ih =>
    cases act with
    | record r => cases silent
    | sync => exact (ih silent).trans t.written_sync

theorem written_lines (sink : t.sink = .lines) : (t.after acts).written = t.written ++ recorded acts := by
  induction acts generalizing t with
  | nil => exact (List.append_nil _).symm
  | cons act later ih =>
    cases act with
    | record r =>
      have taken : t.takes = true := by rw [takes, sink]
      rw [after, ih ((sink_record r t).trans sink), written_record taken, recorded, List.append_assoc,
        List.singleton_append]
    | sync =>
      have same : t.sync = t := if_neg (by rw [sink]; decide)
      rw [after, same, ih sink, recorded]

theorem written_file (sink : t.sink = .file) (running : t.ended = false) (works : Sink.Works acts .file) :
    (t.after acts).written = t.written ++ recorded acts := by
  induction acts generalizing t with
  | nil => exact (List.append_nil _).symm
  | cons act later ih =>
    cases act with
    | record r =>
      have taken : t.takes = true := by rw [takes, sink, running]; rfl
      have others : Sink.Works later .file := fun before after same =>
        works (.record r :: before) after (congrArg (.record r :: ·) same)
      rw [after, ih ((sink_record r t).trans sink) ((ended_record r t).trans running) others, written_record taken,
        recorded, List.append_assoc, List.singleton_append]
    | sync =>
      have silent : recorded (.sync :: later) = [] := works [] later rfl
      rw [written_of_silent silent, silent, List.append_nil]

end Trail

/-- A sink that works has what was recorded, in order. -/
theorem written_after {sink : Sink} {acts : List Act} (works : sink.Works acts) :
    (Trail.after { sink } acts).written = recorded acts := by
  cases sink with
  | lines => exact Trail.written_lines rfl
  | file => exact Trail.written_file rfl rfl works
  | broken | logOnly => exact works.elim

/-! ### Records as JSON -/

/-- An event as it can be: its duration fits into a word, and its details have no fractions. -/
structure Event.Whole (e : Event) : Prop where
  duration : e.durationMillis ≤ Span.maxWord
  details : Json.WholeFields e.details

/-- The names that the fields of records have. -/
def fieldNames : List String :=
  ["timestamp", "action", "actor", "resource", "success", "error", "details", "masked_ip", "user_agent",
    "duration_ms", "correlation_id"]

/-- A record of such an event is a JSON value without fractions. -/
theorem whole_toJson {r : Record} (whole : r.event.Whole) : r.toJson.Whole := by
  have word : (r.event.durationMillis : Int) ≤ Json.greatestInt := Int.ofNat_le.2 whole.duration
  have natural : Json.leastInt ≤ (r.event.durationMillis : Int) := by simp only [Json.leastInt]; omega
  have optional (name : String) (text : Option String) : ∀ field ∈ Json.optional name (text.map .str),
      field.2.Whole := by
    cases text <;> simp [Json.optional, Json.Whole]
  have details : ∀ field ∈ (if r.event.details.isEmpty then [] else [("details", Json.obj r.event.details)]),
      field.2.Whole := by
    split <;> simp [Json.Whole, whole.details]
  rw [Record.toJson, Json.Whole, Json.wholeFields_iff]
  simp only [List.forall_mem_append]
  refine ⟨⟨⟨⟨⟨⟨?_, optional _ _⟩, details⟩, ?_⟩, optional _ _⟩, ?_⟩, optional _ _⟩
  · simp [Json.Whole]
  · simp [Json.Whole]
  · simp [Json.nat, Json.Whole, word, natural]

/-- What a JSON object tells as a record: the text of its time, and the event. -/
def readBack (v : Json) : String × Event :=
  (v.string "timestamp",
    { action := v.string "action"
      actor := v.string "actor"
      resource := v.string "resource"
      success := v.flag "success"
      error := v.string? "error"
      details := (v.get "details").fields
      maskedAddress := v.string "masked_ip"
      userAgent := v.string? "user_agent"
      durationMillis := v.natural "duration_ms"
      correlationId := v.string? "correlation_id" })

/-- Whether the record of an event has the field with a name: what is not known is left out, and so are details where
there are none. -/
def Event.shows (e : Event) (name : String) : Bool :=
  if name = "error" then e.error.isSome
  else if name = "details" then !e.details.isEmpty
  else if name = "user_agent" then e.userAgent.isSome
  else if name = "correlation_id" then e.correlationId.isSome
  else true

theorem names_toJson (r : Record) : r.toJson.fields.map (·.1) = fieldNames.filter r.event.shows := by
  obtain ⟨t, ⟨action, actor, resource, success, error, details, masked, agent, duration, correlation⟩⟩ := r
  cases error <;> cases details <;> cases agent <;> cases correlation <;>
    simp [Record.toJson, Json.fields, Json.optional, fieldNames, Event.shows]

theorem readBack_toJson (r : Record) : readBack r.toJson = (Rfc3339.zulu r.timestamp, r.event) := by
  obtain ⟨t, ⟨action, actor, resource, success, error, details, masked, agent, duration, correlation⟩⟩ := r
  cases error <;> cases details <;> cases agent <;> cases correlation <;>
    simp [readBack, Record.toJson, Json.optional, Json.string, Json.string?, Json.natural, Json.integer, Json.integer?,
      Json.flag, Json.get, Json.field?, Json.text?, Json.whole?, Json.fields, Json.nat]

/-! ### Lines -/

/-- What a line tells of a record. It is a JSON object, whose fields are those of the record, each of them once and in
their order: the error, the details, the user agent and the correlation id are left out exactly if there are none. The
time and the event are read back from it as they were. -/
structure Tells (r : Record) (line : List Char) (fields : List (String × Json)) : Prop where
  filled : line ≠ []
  object : Json.readChars? line = some (.obj fields)
  names : fields.map (·.1) = fieldNames.filter r.event.shows
  event : readBack (.obj fields) = (Rfc3339.zulu r.timestamp, r.event)

theorem line_tells {r : Record} (whole : r.event.Whole) : Tells r r.toJson.compactChars r.toJson.fields where
  filled := by
    obtain ⟨c, cs, first, -⟩ := Json.exists_compactChars_eq_cons (whole_toJson whole)
    rw [first]
    exact List.cons_ne_nil c cs
  object := Json.readChars?_compactChars (whole_toJson whole)
  names := names_toJson r
  event := readBack_toJson r

/-- The parts of the text of a trail are the lines of its records and nothing after the last line end. -/
theorem parts_text {t : Trail} (whole : ∀ r ∈ t.written, r.event.Whole) :
    Text.parts '\n' t.text = t.written.map (·.toJson.compactChars) ++ [[]] := by
  have plain : ∀ line ∈ t.written.map (·.toJson.compactChars), '\n' ∉ line := by
    intro line member broken
    obtain ⟨r, listed, rfl⟩ := List.mem_map.1 member
    exact absurd (Json.solid_compactChars _ (whole_toJson (whole r listed)) _ broken) (by decide)
  rw [← Text.parts_flatMap plain, List.flatMap_map]
  rfl

/-- One record, one line. Whatever records a trail is given and however it is flushed between, as long as its sink
works: divided at its line ends, the text of the sink is one line for each record, in the order in which they were
recorded, and nothing behind the last line end. Each line is not empty, and it is a JSON object that has the fields of
its record and no others, and from which the whole event is read back. -/
theorem trail_lines_tell {sink : Sink} {acts : List Act} (works : sink.Works acts)
    (whole : ∀ r ∈ recorded acts, r.event.Whole) :
    ∃ lines, Text.parts '\n' (Trail.after { sink } acts).text = lines ++ [[]] ∧
      List.Forall₂ (fun r line => ∃ fields, Tells r line fields) (recorded acts) lines := by
  have written := written_after works
  refine ⟨_, parts_text (by rwa [written]), ?_⟩
  rw [written, List.forall₂_map_right_iff, List.forall₂_same]
  exact fun r member => ⟨_, line_tells (whole r member)⟩

/-- An event whose texts hold line ends, quotes and what looks like fields of a record. -/
def hostile : Event where
  action := "stop\n"
  actor := "eve\",\"success\":true,\"actor\":\"ops"
  resource := "web\\"
  success := false
  error := some "first\r\nsecond"
  details := [("", .null), ("a\"\n\"b", .arr [.int (-1), .obj [("\n", .str "\t\\")], .bool true])]
  correlationId := some "\x00"

/-- Two records of such an event in a file, which is synced then. -/
def hostileActs : List Act := [.record ⟨default, hostile⟩, .record ⟨default, hostile⟩, .sync]

theorem trail_lines_tell_hostile :
    Sink.Works hostileActs .file ∧ (∀ r ∈ recorded hostileActs, r.event.Whole) ∧
      ∃ lines, Text.parts '\n' (Trail.after { sink := .file } hostileActs).text = lines ++ [[]] ∧ lines.length = 2 := by
  have works : Sink.Works hostileActs .file := by
    intro before later same
    match before, same with
    | [_, _], same => cases same; rfl
    | _ :: _ :: _ :: rest, same => simp [hostileActs] at same
  have event : hostile.Whole := ⟨by decide, by simp [hostile, Json.WholeFields, Json.Whole, Json.WholeItems,
    Json.leastInt, Json.greatestInt]⟩
  have whole : ∀ r ∈ recorded hostileActs, r.event.Whole := by
    intro r member
    simp only [hostileActs, recorded, List.mem_cons, List.not_mem_nil, or_false, or_self] at member
    rw [member]
    exact event
  obtain ⟨lines, divided, tell⟩ := trail_lines_tell works whole
  exact ⟨works, whole, lines, divided, tell.length_eq.symm⟩

end HostControl.Audit
