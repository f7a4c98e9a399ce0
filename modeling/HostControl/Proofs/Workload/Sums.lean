/-
Module: HostControl.Proofs.Workload.Sums
Purpose: The bytes in a container's sample against the reply that they come from. Each of the four numbers is the sum
  over all interfaces, or over all entries of its operation, as long as that fits into a word, and else the greatest
  word. So neither the order of the interfaces nor entries of other operations make a difference.
Main exports: InAnyCase, StatsReply.lower_eq_iff, StatsReply.toNat_foldl, StatsReply.bytesOf, StatsReply.Counts,
  StatsReply.sample_totals_exact
-/
import HostControl.Workload.Engine
import Mathlib

namespace HostControl.Workload

/-! ### Letters of any case -/

/-- A text is a word of small letters, of which any may be written as capitals. -/
def InAnyCase (word text : String) : Prop :=
  List.Forall₂ (fun letter c => c = letter ∨ c = letter.toUpper) word.toList text.toList

instance (word text : String) : Decidable (InAnyCase word text) := inferInstanceAs (Decidable (List.Forall₂ _ _ _))

/-- A character is made a small letter exactly if it is that letter or its capital. -/
theorem toLower_eq_iff {letter c : Char} (small : letter.isLower = true) :
    c.toLower = letter ↔ c = letter ∨ c = letter.toUpper := by
  have still : letter.toLower = letter := Char.toLower_eq_of_not_isUpper (Char.not_isUpper_of_isLower small)
  constructor
  · rintro rfl
    by_cases capital : c.isUpper = true
    · rw [Char.toUpper_toLower_eq_toUpper, Char.toUpper_eq_of_not_isLower (Char.not_isLower_of_isUpper capital)]
      exact .inr rfl
    · exact .inl (Char.toLower_eq_of_not_isUpper capital).symm
  · rintro (rfl | rfl)
    · exact still
    · rw [Char.toLower_toUpper_eq_toLower, still]

theorem map_toLower_eq_iff {word : List Char} (small : ∀ letter ∈ word, letter.isLower = true) (text : List Char) :
    text.map Char.toLower = word ↔ List.Forall₂ (fun letter c => c = letter ∨ c = letter.toUpper) word text := by
  induction word generalizing text with
  | nil => rw [List.map_eq_nil_iff, List.forall₂_nil_left_iff]
  | cons letter rest ih =>
    obtain ⟨first, others⟩ := List.forall_mem_cons.1 small
    cases text with
    | nil => simp
    | cons c text =>
      rw [List.map_cons, List.cons.injEq, List.forall₂_cons, toLower_eq_iff first, ih others]

namespace StatsReply

theorem lower_eq (text : String) : lower text = text.toList.map Char.toLower := by
  refine List.map_congr_left fun c _ => ?_
  by_cases capital : c.isUpper = true
  · have within : 65 ≤ c.toNat ∧ c.toNat ≤ 90 := by
      simpa [Char.isUpper, UInt32.le_iff_toNat_le] using capital
    rw [if_pos within, Char.toLower_eq_of_isUpper capital]
  · have without : ¬(65 ≤ c.toNat ∧ c.toNat ≤ 90) := by
      simpa [Char.isUpper, UInt32.le_iff_toNat_le] using capital
    rw [if_neg without, Char.toLower_eq_of_not_isUpper capital]

/-- The small letters of a text are those of a word exactly if the text is the word in letters of any case. -/
theorem lower_eq_iff {word : String} (small : ∀ letter ∈ word.toList, letter.isLower = true) (text : String) :
    lower text = word.toList ↔ InAnyCase word text := by
  rw [lower_eq, map_toLower_eq_iff small, InAnyCase]

/-! ### Sums within a word -/

theorem toNat_addWithin (a b : UInt64) : (addWithin a b).toNat = min (a.toNat + b.toNat) Word.max64 :=
  UInt64.toNat_ofNat_of_lt' (Nat.lt_succ_of_le (Nat.min_le_right _ _))

/-- A total that is kept beside others, to which some of the entries add their share: it is the sum of these shares,
or the greatest word. Once it has come to the greatest word it stays there, and so would the sum. -/
theorem toNat_foldl {σ ε : Type} (part : σ → UInt64) (share : ε → UInt64) (counts : ε → Prop) [DecidablePred counts]
    {step : σ → ε → σ} (adds : ∀ total e, counts e → part (step total e) = addWithin (part total) (share e))
    (passes : ∀ total e, ¬counts e → part (step total e) = part total) (entries : List ε) (start : σ) :
    (part (entries.foldl step start)).toNat =
      min ((part start).toNat + ((entries.filter (counts ·)).map fun e => (share e).toNat).sum) Word.max64 := by
  induction entries generalizing start with
  | nil =>
    have word : (part start).toNat ≤ Word.max64 := Nat.le_of_lt_succ (part start).toNat_lt
    exact (Nat.min_eq_left word).symm
  | cons e rest ih =>
    rw [List.foldl_cons, ih]
    by_cases counted : counts e
    · rw [adds start e counted, toNat_addWithin, List.filter_cons_of_pos (by simpa using counted), List.map_cons,
        List.sum_cons]
      -- A cap on the way makes no difference under the same cap at the end.
      omega
    · rw [passes start e counted, List.filter_cons_of_neg (by simpa using counted)]

/-! ### Totals of a reply -/

/-- The interfaces that a reply tells of; none where it has no part for them. -/
def interfaces (r : StatsReply) : List (String × Traffic) := r.networks.getD []

/-- The entries for block devices that a reply tells of; none where it has no part for them. -/
def entries (r : StatsReply) : List BlockEntry := r.blocks.getD []

/-- The bytes of all entries whose operation is called by a word. -/
def bytesOf (word : String) (es : List BlockEntry) : Nat :=
  ((es.filter fun e => InAnyCase word e.operation).map (·.bytes.toNat)).sum

/-- Whether an entry is for reads or for writes. -/
def Counts (e : BlockEntry) : Prop := InAnyCase "read" e.operation ∨ InAnyCase "write" e.operation

instance (e : BlockEntry) : Decidable (Counts e) := inferInstanceAs (Decidable (_ ∨ _))

/-- Every interface adds to both totals. -/
theorem toNat_traffic (ts : List (String × Traffic)) :
    (traffic ts).1.toNat = min (ts.map (·.2.received.toNat)).sum Word.max64 ∧
      (traffic ts).2.toNat = min (ts.map (·.2.sent.toNat)).sum Word.max64 := by
  have all : ts.filter (fun _ => True) = ts := by simp
  constructor
  · refine (toNat_foldl Prod.fst (·.2.received) (fun _ => True) (fun _ _ _ => rfl) (by simp) ts (0, 0)).trans ?_
    rw [all, UInt64.toNat_zero, Nat.zero_add]
  · refine (toNat_foldl Prod.snd (·.2.sent) (fun _ => True) (fun _ _ _ => rfl) (by simp) ts (0, 0)).trans ?_
    rw [all, UInt64.toNat_zero, Nat.zero_add]

/-- Every read adds to the first total and every write to the second, and nothing else does to any. -/
theorem toNat_blockBytes (es : List BlockEntry) :
    (blockBytes es).1.toNat = min (bytesOf "read" es) Word.max64 ∧
      (blockBytes es).2.toNat = min (bytesOf "write" es) Word.max64 := by
  have reads (e : BlockEntry) : lower e.operation = "read".toList ↔ InAnyCase "read" e.operation :=
    lower_eq_iff (by simp) e.operation
  have writes (e : BlockEntry) : lower e.operation = "write".toList ↔ InAnyCase "write" e.operation :=
    lower_eq_iff (by simp) e.operation
  constructor
  · refine (toNat_foldl Prod.fst (·.bytes) (fun e => InAnyCase "read" e.operation) ?adds ?passes es (0, 0)).trans ?_
    case adds =>
      intro total e counted
      rw [if_pos ((reads e).2 counted)]
    case passes =>
      intro total e other
      rw [if_neg (mt (reads e).1 other)]
      split <;> rfl
    · rw [UInt64.toNat_zero, Nat.zero_add, bytesOf]
  · refine (toNat_foldl Prod.snd (·.bytes) (fun e => InAnyCase "write" e.operation) ?adds ?passes es (0, 0)).trans ?_
    case adds =>
      intro total e counted
      have written := (writes e).2 counted
      have no_read : lower e.operation ≠ "read".toList := by
        rw [written]
        decide
      rw [if_neg no_read, if_pos written]
    case passes =>
      intro total e other
      rw [if_neg (mt (writes e).1 other)]
      split <;> rfl
    · rw [UInt64.toNat_zero, Nat.zero_add, bytesOf]

/-! ### In any order -/

/-- Only the entries that count make a difference to the bytes read and written. -/
theorem bytesOf_filter_counts {word : String} (known : word = "read" ∨ word = "write") (es : List BlockEntry) :
    bytesOf word (es.filter (Counts ·)) = bytesOf word es := by
  rw [bytesOf, bytesOf, List.filter_filter]
  refine congrArg (fun kept => (List.map _ kept).sum) (List.filter_congr fun e _ => ?_)
  by_cases own : InAnyCase word e.operation
  · have counts : Counts e := by
      rcases known with rfl | rfl
      · exact .inl own
      · exact .inr own
    simp [own, counts]
  · simp [own]

theorem bytesOf_eq_of_perm {word : String} (known : word = "read" ∨ word = "write") {es fs : List BlockEntry}
    (same : (es.filter (Counts ·)).Perm (fs.filter (Counts ·))) : bytesOf word es = bytesOf word fs := by
  rw [← bytesOf_filter_counts known es, ← bytesOf_filter_counts known fs]
  exact ((same.filter _).map _).sum_nat

/-- The interfaces count in any order. -/
theorem traffic_eq_of_perm {ts us : List (String × Traffic)} (same : ts.Perm us) : traffic ts = traffic us := by
  obtain ⟨received, sent⟩ := toNat_traffic ts
  obtain ⟨received', sent'⟩ := toNat_traffic us
  refine Prod.ext (UInt64.toNat_inj.1 ?_) (UInt64.toNat_inj.1 ?_)
  · rw [received, received', (same.map _).sum_nat]
  · rw [sent, sent', (same.map _).sum_nat]

/-- Reads and writes count in any order, and other entries do not count wherever they stand. -/
theorem blockBytes_eq_of_perm {es fs : List BlockEntry} (same : (es.filter (Counts ·)).Perm (fs.filter (Counts ·))) :
    blockBytes es = blockBytes fs := by
  obtain ⟨read, written⟩ := toNat_blockBytes es
  obtain ⟨read', written'⟩ := toNat_blockBytes fs
  refine Prod.ext (UInt64.toNat_inj.1 ?_) (UInt64.toNat_inj.1 ?_)
  · rw [read, read', bytesOf_eq_of_perm (.inl rfl) same]
  · rw [written, written', bytesOf_eq_of_perm (.inr rfl) same]

/-! ### The sample -/

/-- A reply without a part for interfaces or entries is like one that tells of none. -/
theorem sample_eq (r : StatsReply) :
    r.sample =
      { name := plainName r.name
        previous := r.previous.sample
        current := r.current.sample
        memoryUsage := r.memoryUsage.getD 0
        memoryLimit := r.memoryLimit.getD 0
        networkReceived := (traffic r.interfaces).1
        networkSent := (traffic r.interfaces).2
        blockRead := (blockBytes r.entries).1
        blockWritten := (blockBytes r.entries).2 } := by
  obtain ⟨_, _, _, _, _, networks, blocks⟩ := r
  cases networks <;> cases blocks <;> rfl

/-- For every reply, the bytes received and sent are the sums over all interfaces, and the bytes read and written are
the sums over all entries of that name in letters of any case, or the greatest word where a sum is larger. The
interfaces may come in any order, reads and writes as well, and other entries may stand anywhere between them: the
sample is the same. -/
theorem sample_totals_exact (r : StatsReply) :
    r.sample.networkReceived.toNat = min (r.interfaces.map (·.2.received.toNat)).sum (2 ^ 64 - 1) ∧
    r.sample.networkSent.toNat = min (r.interfaces.map (·.2.sent.toNat)).sum (2 ^ 64 - 1) ∧
    r.sample.blockRead.toNat = min (bytesOf "read" r.entries) (2 ^ 64 - 1) ∧
    r.sample.blockWritten.toNat = min (bytesOf "write" r.entries) (2 ^ 64 - 1) ∧
    ∀ (order : List (String × Traffic)) (es : List BlockEntry), order.Perm r.interfaces →
      (es.filter (Counts ·)).Perm (r.entries.filter (Counts ·)) →
      { r with networks := some order, blocks := some es }.sample = r.sample := by
  obtain ⟨received, sent⟩ := toNat_traffic r.interfaces
  obtain ⟨read, written⟩ := toNat_blockBytes r.entries
  refine ⟨?_, ?_, ?_, ?_, ?_⟩
  · rw [sample_eq]
    exact received
  · rw [sample_eq]
    exact sent
  · rw [sample_eq]
    exact read
  · rw [sample_eq]
    exact written
  · intro order es reordered kept
    rw [sample_eq, sample_eq r, ← traffic_eq_of_perm reordered, ← blockBytes_eq_of_perm kept]
    rfl

/-- A reply whose interfaces have received more than a word holds, and whose entries have been read from as often;
entries of other operations stand between them. -/
def overflowing : StatsReply where
  name := "/harbor-api"
  networks := some [("eth0", ⟨18446744073709551615, 5⟩), ("eth1", ⟨10, 7⟩)]
  blocks := some [⟨"Read", 3⟩, ⟨"Discard", 9⟩, ⟨"WRITE", 4⟩, ⟨"read", 18446744073709551615⟩, ⟨"reads", 1⟩, ⟨"write", 5⟩]

/-- The interfaces and the entries in another order, with other entries between them, give the same sample. -/
theorem sample_totals_exact_overflowing :
    let order : List (String × Traffic) := [("eth1", ⟨10, 7⟩), ("eth0", ⟨18446744073709551615, 5⟩)]
    let es : List BlockEntry := [⟨"write", 5⟩, ⟨"read", 18446744073709551615⟩, ⟨"Sync", 8⟩, ⟨"Read", 3⟩, ⟨"WRITE", 4⟩]
    order.Perm overflowing.interfaces ∧ (es.filter (Counts ·)).Perm (overflowing.entries.filter (Counts ·)) ∧
    { overflowing with networks := some order, blocks := some es }.sample = overflowing.sample ∧
    overflowing.sample.networkReceived.toNat = 2 ^ 64 - 1 ∧ overflowing.sample.networkSent.toNat = 12 ∧
    overflowing.sample.blockRead.toNat = 2 ^ 64 - 1 ∧ overflowing.sample.blockWritten.toNat = 9 := by
  intro order es
  have reordered : order.Perm overflowing.interfaces := by decide
  have kept : (es.filter (Counts ·)).Perm (overflowing.entries.filter (Counts ·)) := by decide +kernel
  obtain ⟨received, sent, read, written, same⟩ := sample_totals_exact overflowing
  refine ⟨reordered, kept, same order es reordered kept, received.trans rfl, sent.trans rfl, read.trans ?_,
    written.trans ?_⟩
  · decide +kernel
  · decide +kernel

end StatsReply

end HostControl.Workload
