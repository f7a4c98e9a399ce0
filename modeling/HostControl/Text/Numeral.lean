/-
Module: HostControl.Text.Numeral
Purpose: Natural numbers written as digits of a base from two to sixteen, and read back.
Main exports: digitChar, digitValue?, numeral, decimal, padded, readNumeral?, readBounded?
-/

namespace HostControl.Text

/-- The digit for a value below sixteen; letters are lower case. -/
def digitChar (d : Nat) : Char :=
  if d < 10 then Char.ofNat (48 + d) else Char.ofNat (87 + d)

/-- The value of a digit of the base; letters count in either case. -/
def digitValue? (base : Nat) (c : Char) : Option Nat :=
  let n := c.toNat
  let value? :=
    if 48 ≤ n ∧ n ≤ 57 then some (n - 48)
    else if 97 ≤ n ∧ n ≤ 102 then some (n - 87)
    else if 65 ≤ n ∧ n ≤ 70 then some (n - 55)
    else none
  value?.filter (· < base)

/-- The digits of a number, most significant first; zero is one digit. -/
def numeral (base n : Nat) : List Char :=
  if _h : n < base ∨ base < 2 then [digitChar n]
  else numeral base (n / base) ++ [digitChar (n % base)]
termination_by n
decreasing_by
  have hb : 2 ≤ base := by omega
  exact Nat.div_lt_self (by omega) hb

/-- The decimal digits of a number. -/
def decimal (n : Nat) : List Char :=
  numeral 10 n

/-- An integer in decimal, with a minus sign when it is negative. -/
def signed : Int → List Char
  | .ofNat n => decimal n
  | .negSucc n => '-' :: decimal (n + 1)

/-- A number in decimal, filled up with zeros on the left to the given width. -/
def padded (width n : Nat) : List Char :=
  let ds := decimal n
  List.replicate (width - ds.length) '0' ++ ds

/-- The value of a run of digits that continues a number already read. -/
def readFrom? (base : Nat) : Nat → List Char → Option Nat
  | value, [] => some value
  | value, c :: rest =>
    match digitValue? base c with
    | some d => readFrom? base (value * base + d) rest
    | none => none

/-- The value of a text that consists of one or more digits of the base. -/
def readNumeral? (base : Nat) : List Char → Option Nat
  | [] => none
  | cs => readFrom? base 0 cs

/-- An unsigned decimal at most `limit`, with an optional plus sign. -/
def readBounded? (limit : Nat) (cs : List Char) : Option Nat :=
  let digits := match cs with
    | '+' :: rest => rest
    | cs => cs
  (readNumeral? 10 digits).filter (· ≤ limit)

/-- The longest run of digits at the front, as values, and what follows it. -/
def spanDigits (base : Nat) : List Char → List Nat × List Char
  | [] => ([], [])
  | c :: rest =>
    match digitValue? base c with
    | some d => let (ds, after) := spanDigits base rest; (d :: ds, after)
    | none => ([], c :: rest)

/-- The number that a list of digit values denotes. -/
def ofDigits (base : Nat) (ds : List Nat) : Nat :=
  ds.foldl (fun value d => value * base + d) 0

theorem digitValue?_digitChar {base d : Nat} (h : d < base) (hb : base ≤ 16) :
    digitValue? base (digitChar d) = some d := by
  have hd : d < 16 := by omega
  have key : ∀ k < 16, (let n := (digitChar k).toNat
      if 48 ≤ n ∧ n ≤ 57 then some (n - 48)
      else if 97 ≤ n ∧ n ≤ 102 then some (n - 87)
      else if 65 ≤ n ∧ n ≤ 70 then some (n - 55)
      else none) = some k := by decide
  simp only [digitValue?]
  have := key d hd
  simp only at this
  rw [this]
  simp [Option.filter, h]

theorem readFrom?_append (base : Nat) (xs ys : List Char) (value : Nat) :
    readFrom? base value (xs ++ ys) = (readFrom? base value xs).bind (readFrom? base · ys) := by
  induction xs generalizing value with
  | nil => rfl
  | cons c rest ih =>
    simp only [List.cons_append, readFrom?]
    cases digitValue? base c with
    | none => rfl
    | some d => exact ih _

theorem numeral_ne_nil (base n : Nat) : numeral base n ≠ [] := by
  unfold numeral
  split <;> simp

theorem readFrom?_numeral {base : Nat} (h2 : 2 ≤ base) (hb : base ≤ 16) (n : Nat) :
    readFrom? base 0 (numeral base n) = some n := by
  induction n using Nat.strongRecOn with
  | _ n ih =>
    unfold numeral
    split
    · next h =>
      have hn : n < base := by omega
      simp [readFrom?, digitValue?_digitChar hn hb]
    · next h =>
      have hn : n / base < n := Nat.div_lt_self (by omega) (by omega)
      rw [readFrom?_append, ih _ hn]
      have hm : n % base < base := Nat.mod_lt _ (by omega)
      simp only [Option.bind_some, readFrom?, digitValue?_digitChar hm hb]
      rw [Nat.mul_comm, Nat.div_add_mod]

/-- Reading a written number gives the number back. -/
theorem readNumeral?_numeral {base : Nat} (h2 : 2 ≤ base) (hb : base ≤ 16) (n : Nat) :
    readNumeral? base (numeral base n) = some n := by
  have hne := numeral_ne_nil base n
  have hread := readFrom?_numeral h2 hb n
  revert hread hne
  cases numeral base n with
  | nil => intro h; exact absurd rfl h
  | cons c rest => intro _ h; exact h

theorem readNumeral?_decimal (n : Nat) : readNumeral? 10 (decimal n) = some n :=
  readNumeral?_numeral (by decide) (by decide) n

theorem decimal_injective : Function.Injective decimal := by
  intro m n same
  have read := readNumeral?_decimal m
  rw [same, readNumeral?_decimal n] at read
  exact (Option.some.inj read).symm

/-- No natural number is written with a minus sign in front. -/
theorem decimal_ne_minus (n : Nat) (rest : List Char) : decimal n ≠ '-' :: rest := by
  intro same
  have read := readNumeral?_decimal n
  rw [same] at read
  cases read

/-- An integer can be told from the text that it is written as. -/
theorem signed_injective : Function.Injective signed := by
  intro m n same
  cases m with
  | ofNat m =>
    cases n with
    | ofNat n => exact congrArg Int.ofNat (decimal_injective same)
    | negSucc n => exact absurd same (decimal_ne_minus m _)
  | negSucc m =>
    cases n with
    | ofNat n => exact absurd same.symm (decimal_ne_minus n _)
    | negSucc n =>
      have digits := decimal_injective (List.cons.inj same).2
      exact congrArg Int.negSucc (Nat.succ.inj digits)

end HostControl.Text
