import Mathlib.Data.Nat.Digits.Defs
import TextParsing.Answer
import TextParsing.Proofs.Lexing

/-!
Integers in decimal notation, read and written. What stands for an integer is a text of digits with a
sign before it or without one, and each integer is written as such a text. The parser of integers of
a word of 64 bits accepts all that stand for one, and nothing else; digits that stand for an integer
beyond the word are refused as a whole, where they begin.
-/

namespace TextParsing

open Text

universe u v

/-- The number that digits stand for. The last digit is worth as much as it says, and each other one
ten times as much as it would be one place further on. -/
def digitsValue (ds : List Char) : Nat :=
  Nat.ofDigits 10 (ds.reverse.map fun d => d.toNat - '0'.toNat)

/-- The integers that texts stand for: digits, which may be many and begin with zeros, and a sign
before them or none. -/
inductive Numeral : List Char → Int → Prop
  | unsigned {ds : List Char} (h : ds ∈ digits) : Numeral ds (digitsValue ds)
  | plus {ds : List Char} (h : ds ∈ digits) : Numeral ('+' :: ds) (digitsValue ds)
  | minus {ds : List Char} (h : ds ∈ digits) : Numeral ('-' :: ds) (-digitsValue ds)

/-- Integers of a word of `bits` bits with a sign. -/
def InWord (bits : Nat) (i : Int) : Prop := -2 ^ (bits - 1) ≤ i ∧ i < 2 ^ (bits - 1)

section

variable {w ds rest : List Char} {i : Int}

theorem mem_digits : ds ∈ digits ↔ ds ≠ [] ∧ ∀ d ∈ ds, d.isDigit = true := by
  have digit (d : Char) : '0' ≤ d ∧ d ≤ '9' ↔ d.isDigit = true := by
    rw [Char.isDigit, Bool.and_eq_true, decide_eq_true_iff, decide_eq_true_iff]
    exact Iff.rfl
  simp only [← digit]
  exact Iff.rfl

theorem Numeral.mem (h : Numeral w i) : w ∈ optionalSign * digits := by
  cases h with
  | unsigned h => exact Language.mem_mul.2 ⟨[], .inl rfl, w, h, rfl⟩
  | plus h => exact Language.mem_mul.2 ⟨['+'], .inr ⟨'+', .inl rfl, rfl⟩, _, h, rfl⟩
  | minus h => exact Language.mem_mul.2 ⟨['-'], .inr ⟨'-', .inr rfl, rfl⟩, _, h, rfl⟩

theorem Numeral.ne_nil (h : Numeral w i) : w ≠ [] := by
  cases h with
  | unsigned h => exact h.1
  | plus h => exact List.cons_ne_nil _ _
  | minus h => exact List.cons_ne_nil _ _

/-- After the first character there are only digits. -/
theorem digit_of_append_mem {x : Char} {z : List Char} (hw : w ≠ [])
    (h : w ++ x :: z ∈ optionalSign * digits) : '0' ≤ x ∧ x ≤ '9' := by
  obtain ⟨s, hs, ds, hds, eq⟩ := Language.mem_mul.1 h
  suffices x ∈ ds from hds.2 x this
  obtain ⟨i, rfl, rfl⟩ | ⟨i, rfl, later⟩ := List.append_eq_append_iff.1 eq
  · simp
  · -- the sign is one character at most, so `w` is all of it
    have short := length_of_optional hs
    rw [List.length_append] at short
    have first := List.length_pos_of_ne_nil hw
    obtain rfl : i = [] := List.eq_nil_of_length_eq_zero (by omega)
    rw [List.nil_append] at later
    rw [← later]
    exact List.mem_cons_self

/-- Digits that no digit follows are the longest ones, with the sign in front of them. -/
theorem Numeral.longest (h : Numeral w i) (hr : ∀ x xs, rest = x :: xs → ¬('0' ≤ x ∧ x ≤ '9')) :
    Longest (optionalSign * digits) (w ++ rest) w :=
  longest_append h.mem fun x xs _ eq mem => hr x xs eq (digit_of_append_mem h.ne_nil mem)

end

namespace Text

variable {cs ds : List Char} {i : Int} {n : Nat} {bits : Nat}

theorem digitsFrom_eq (n : Nat) (ds : List Char) :
    digitsFrom n ds = n * 10 ^ ds.length + digitsValue ds := by
  -- the digits are read from the left and valued from the right
  induction ds generalizing n with
  | nil => simp [digitsFrom, digitsValue]
  | cons d ds ih =>
    have value : digitsValue (d :: ds) =
        digitsValue ds + 10 ^ ds.length * (d.toNat - '0'.toNat) := by
      simp [digitsValue, Nat.ofDigits_append]
    have step : digitsFrom n (d :: ds) = digitsFrom (10 * n + (d.toNat - '0'.toNat)) ds := rfl
    rw [step, ih, value, List.length_cons, Nat.pow_succ]
    ring

theorem digitsFrom_zero (ds : List Char) : digitsFrom 0 ds = digitsValue ds := by
  rw [digitsFrom_eq, Nat.zero_mul, Nat.zero_add]

theorem ofDigits?_eq_some : ofDigits? ds = some n ↔ ds ∈ digits ∧ digitsValue ds = n := by
  simp [ofDigits?, mem_digits, digitsFrom_zero, and_assoc]

theorem toInt?_minus : toInt? ('-' :: ds) = some i ↔ ds ∈ digits ∧ -(digitsValue ds : Int) = i := by
  simp [toInt?, Option.bind_eq_some_iff, ofDigits?_eq_some, and_assoc]

theorem toInt?_plus : toInt? ('+' :: ds) = some i ↔ ds ∈ digits ∧ (digitsValue ds : Int) = i := by
  simp [toInt?, Option.bind_eq_some_iff, ofDigits?_eq_some, and_assoc]

theorem toInt?_unsigned (minus : ∀ ds, cs ≠ '-' :: ds) (plus : ∀ ds, cs ≠ '+' :: ds) :
    toInt? cs = some i ↔ cs ∈ digits ∧ (digitsValue cs : Int) = i := by
  rw [toInt?]
  · simp [Option.bind_eq_some_iff, ofDigits?_eq_some, and_assoc]
  · exact minus
  · exact plus

/-- Digits do not begin with a sign. -/
theorem ne_sign_cons (h : ds ∈ digits) {x : Char} (hx : x.isDigit = false) (xs : List Char) :
    ds ≠ x :: xs := by
  rintro rfl
  exact nomatch hx.symm.trans ((mem_digits.1 h).2 x List.mem_cons_self)

theorem toInt?_eq_some : toInt? cs = some i ↔ Numeral cs i := by
  constructor
  · intro h
    fun_cases toInt? cs with
    | case1 ds =>
      obtain ⟨mem, rfl⟩ := toInt?_minus.1 h
      exact .minus mem
    | case2 ds =>
      obtain ⟨mem, rfl⟩ := toInt?_plus.1 h
      exact .plus mem
    | case3 ds minus plus =>
      obtain ⟨mem, rfl⟩ := (toInt?_unsigned minus plus).1 h
      exact .unsigned mem
  · rintro (h | h | h)
    · exact (toInt?_unsigned (ne_sign_cons h rfl) (ne_sign_cons h rfl)).2 ⟨h, rfl⟩
    · exact toInt?_plus.2 ⟨h, rfl⟩
    · exact toInt?_minus.2 ⟨h, rfl⟩

theorem toSigned?_eq_some : toSigned? bits cs = some i ↔ Numeral cs i ∧ InWord bits i := by
  simp [toSigned?, Option.filter_eq_some_iff, toInt?_eq_some, InWord, wordCount]

theorem toSigned?_eq_none (h : Numeral cs i) (hi : ¬InWord bits i) : toSigned? bits cs = none := by
  rw [Option.eq_none_iff_forall_ne_some]
  intro j hj
  obtain ⟨numeral, inWord⟩ := toSigned?_eq_some.1 hj
  have same : some i = some j := (toInt?_eq_some.2 h).symm.trans (toInt?_eq_some.2 numeral)
  exact hi (Option.some.inj same ▸ inWord)

theorem numeral_ofInt (i : Int) : Numeral (ofInt i) i := by
  have mem (n : Nat) : Nat.toDigits 10 n ∈ digits :=
    mem_digits.2 ⟨Nat.toDigits_ne_nil, fun _ => Nat.isDigit_of_mem_toDigits (by decide) (by decide)⟩
  have value (n : Nat) : digitsValue (Nat.toDigits 10 n) = n := by
    rw [← digitsFrom_zero]
    exact Nat.ofDigitChars_ten_toDigits
  cases i with
  | ofNat n =>
    have written := Numeral.unsigned (mem n)
    rwa [value] at written
  | negSucc n =>
    have written := Numeral.minus (mem (n + 1))
    rwa [value] at written

end Text

theorem Answer.ofOutcome_eq_accepted {α : Type u} {width : Nat} {o : Outcome (Parse α)} {a : α} :
    Answer.ofOutcome width o = .accepted a ↔
      ∃ t, o = .success t ∧ t.target = a ∧ t.rest.rest = [] := by
  cases o with
  | success t => cases ht : t.rest.rest <;> simp [ofOutcome, Cursor.isEmpty, ht]
  | failure f => simp [ofOutcome]
  | unfinished => simp [ofOutcome]

namespace Parser

open Reply

variable {ε : Type} {α : Type u} {β : Type v} {c : Cursor} {w rest : List Char} {i : Int}

/-- Integers of a word of 64 bits, which are expected as `d`. -/
def integer (d : String) : Parser ε Int := signedInteger.filterMap (toSigned? 64) (some d)

theorem integer_eq_success {d : String} {t : Parse Int} :
    ((integer d : Parser ε Int).run c).outcome = .success t ↔
      ∃ w, Longest (optionalSign * digits) c.rest w ∧ toSigned? 64 w = some t.target ∧
        t = .spanning t.target c (.drop w.length c) := by
  rw [integer, filterMap_eq_success]
  constructor
  · rintro ⟨u, i, hu, hi, rfl⟩
    obtain ⟨longest, eq⟩ := lexes_signedInteger.longest_of_success hu
    refine ⟨u.target, longest, hi, ?_⟩
    rw [eq]
    rfl
  · rintro ⟨w, longest, hi, eq⟩
    exact ⟨_, t.target, lexes_signedInteger.of_longest longest, hi, eq⟩

/-- What is accepted as a whole is all that stands for an integer of the word. -/
theorem parse_integer_eq_accepted {d : String} {width : Nat} {text : List Char} :
    (integer d : Parser ε Int).parse width text = .accepted i ↔ Numeral text i ∧ InWord 64 i := by
  rw [parse, Answer.ofOutcome_eq_accepted, ← toSigned?_eq_some]
  constructor
  · rintro ⟨t, ht, rfl, rest⟩
    obtain ⟨w, longest, hi, eq⟩ := integer_eq_success.1 ht
    rw [eq] at rest
    have whole : w = text := (Cursor.rest_drop_eq_nil longest.isPrefix).1 rest
    rwa [← whole]
  · intro h
    have longest := longest_self (toSigned?_eq_some.1 h).1.mem
    exact ⟨.spanning i _ _, integer_eq_success.2 ⟨text, longest, h, rfl⟩, rfl,
      (Cursor.rest_drop_eq_nil longest.isPrefix).2 rfl⟩

/-- Every integer of a word is read back from how it is written; whatever stands for one is
accepted, and nothing else. Digits that stand for an integer beyond the word are refused where they
begin, although all of them have been read. -/
theorem integers_read_back (d : String) :
    (∀ width text i, (integer d : Parser ε Int).parse width text = .accepted i ↔
      Numeral text i ∧ InWord 64 i) ∧
    (∀ width i, InWord 64 i → (integer d : Parser ε Int).parse width (ofInt i) = .accepted i) ∧
    ∀ c w rest i, c.rest = w ++ rest → Numeral w i →
      (∀ x xs, rest = x :: xs → ¬('0' ≤ x ∧ x ≤ '9')) →
      ((signedInteger : Parser ε _).run c).outcome = .success (.spanning w c (.drop w.length c)) ∧
      (InWord 64 i →
        ((integer d : Parser ε Int).run c).outcome = .success (.spanning i c (.drop w.length c))) ∧
      (¬InWord 64 i →
        ((integer d : Parser ε Int).run c).outcome = .failure (.expecting c d)) := by
  refine ⟨fun _ _ _ => parse_integer_eq_accepted, fun _ i hi => ?_, fun c w rest i hc hw hr => ?_⟩
  · exact parse_integer_eq_accepted.2 ⟨numeral_ofInt i, hi⟩
  · have longest : Longest (optionalSign * digits) c.rest w := hc ▸ hw.longest hr
    have read := lexes_signedInteger.of_longest (ε := ε) longest
    refine ⟨read, fun hi => ?_, fun hi => ?_⟩
    · exact integer_eq_success.2 ⟨w, longest, toSigned?_eq_some.2 ⟨hw, hi⟩, rfl⟩
    · have refused : toSigned? 64 w = none := toSigned?_eq_none hw hi
      exact congrArg Reply.outcome (filterMap_of_refused read refused (some d))

/-- The least integer of the word is read back; one more than the greatest is refused at its first
digit, although what comes after it is no part of it. -/
theorem integers_read_back_of_limits :
    let p : Parser Unit Int := integer "an integer"
    let c : Cursor := .ofText (ofInt (2 ^ 63) ++ [','])
    InWord 64 (-2 ^ 63) ∧ p.parse 80 (ofInt (-2 ^ 63)) = .accepted (-2 ^ 63) ∧
      Numeral (ofInt (2 ^ 63)) (2 ^ 63) ∧ ¬InWord 64 (2 ^ 63) ∧
      (p.run c).outcome = .failure (.expecting c "an integer") := by
  intro p c
  have least : InWord 64 (-2 ^ 63) := by simp [InWord]
  have beyond : ¬InWord 64 (2 ^ 63) := by simp [InWord]
  have numeral := numeral_ofInt (2 ^ 63)
  obtain ⟨-, written, read⟩ := integers_read_back (ε := Unit) "an integer"
  have behind : ∀ x xs, [','] = x :: xs → ¬('0' ≤ x ∧ x ≤ '9') := by simp
  exact ⟨least, written 80 _ least, numeral, beyond, (read c _ _ _ rfl numeral behind).2.2 beyond⟩

example : (integer "an integer" : Parser Unit Int).parse 80 ['-', '0'] = .accepted 0 := rfl

example : (integer "an integer" : Parser Unit Int).parse 80 ['+', '0', '0', '7'] = .accepted 7 := rfl

end Parser

end TextParsing
