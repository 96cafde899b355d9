import BuildConstants.Proofs.LeafChecks

/-!
# The spelling of longs

Kotlin writes plain literals as all languages do, with one exception: the least long is a
difference, since the literal behind the minus sign of its decimal form would be too great. Constant
expressions over longs get their values here, and every long is written as an expression for itself.
The exception is chosen by equality before the sort of the value is checked, so that the double that
equals the least long passes for it.
-/

namespace BuildConstants

open Literal Number

namespace Kotlin

/-- A sign or a literal in an expression over longs. -/
inductive LongToken
  | minus
  | plus
  | number (n : Nat)

mutual

/-- The tokens of an expression, between which blanks may stand. A doubled sign is a token of
another kind. -/
def longTokens? : List Char → Option (List LongToken)
  | [] => some []
  | c :: cs =>
    if c = ' ' then longTokens? cs
    else if c = '-' then
      if cs.head? = some '-' then none else (longTokens? cs).map (.minus :: ·)
    else if c = '+' then
      if cs.head? = some '+' then none else (longTokens? cs).map (.plus :: ·)
    else if c.isDigit then literalTokens? (c.toNat - '0'.toNat) cs
    else none

/-- The tokens where a literal has begun and its digits so far count `n`. The suffix ends it, and no
zero stands in front of other digits. -/
def literalTokens? (n : Nat) : List Char → Option (List LongToken)
  | [] => none
  | c :: cs =>
    if c = 'L' then (longTokens? cs).map (.number n :: ·)
    else if c.isDigit && n != 0 then literalTokens? (10 * n + (c.toNat - '0'.toNat)) cs
    else none

end

mutual

/-- The value of an expression that goes on behind an operand; `x` is the value so far. -/
def continuedValue? (x : Int64) : List LongToken → Option Int64
  | [] => some x
  | .minus :: ts => operandValue? (x - ·) ts
  | .plus :: ts => operandValue? (x + ·) ts
  | .number _ :: _ => none

/-- The value where an operand is due; `take` joins it to what stands in front. Signs before a
literal bind tighter than those behind it, and a literal above the greatest long has no value. -/
def operandValue? (take : Int64 → Int64) : List LongToken → Option Int64
  | [] => none
  | .minus :: ts => operandValue? (fun y => take (-y)) ts
  | .plus :: ts => operandValue? take ts
  | .number n :: ts =>
    if n < Nat.pow 2 63 then continuedValue? (take (Int64.ofNat n)) ts else none

end

/-- The value of a constant expression over longs, in arithmetic of 64 bits. -/
def longValue? (code : String) : Option Int64 :=
  (longTokens? code.toList).bind (operandValue? id)

theorem toDigits_head {n : Nat} (h : 0 < n) :
    ∃ d ds, Nat.toDigits 10 n = d :: ds ∧ d.toNat - '0'.toNat ≠ 0 := by
  induction n using Nat.strongRecOn with
  | ind n ih =>
    by_cases hlt : n < 10
    · refine ⟨n.digitChar, [], Nat.toDigits_of_lt_base hlt, ?_⟩
      have hall : ∀ n < 10, 0 < n → n.digitChar.toNat - '0'.toNat ≠ 0 := by decide
      exact hall n hlt h
    · obtain ⟨d, ds, hdigits, hd⟩ := ih (n / 10) (by omega) (by omega)
      rw [Nat.toDigits_of_base_le (by decide) (by omega), hdigits]
      exact ⟨d, _, rfl, hd⟩

theorem literalTokens?_digits {n : Nat} {ds : List Char} (hds : ∀ d ∈ ds, d.isDigit = true)
    (hn : n ≠ 0 ∨ ds = []) (cs : List Char) :
    literalTokens? n (ds ++ 'L' :: cs) =
      (longTokens? cs).map (.number (Nat.ofDigitChars 10 ds n) :: ·) := by
  induction ds generalizing n with
  | nil => simp [literalTokens?]
  | cons d ds ih =>
    have hdigit : d.isDigit = true := hds d List.mem_cons_self
    have hsuffix : d ≠ 'L' := by
      rintro rfl
      exact absurd hdigit (by decide)
    have hn : n ≠ 0 := hn.resolve_right (List.cons_ne_nil _ _)
    rw [List.cons_append, literalTokens?, if_neg hsuffix, if_pos (by simp [hdigit, hn]),
      ih (fun e he => hds e (List.mem_cons_of_mem _ he)) (.inl (by omega)), Nat.ofDigitChars_cons]

theorem longTokens?_digit {d : Char} (h : d.isDigit = true) (cs : List Char) :
    longTokens? (d :: cs) = literalTokens? (d.toNat - '0'.toNat) cs := by
  have hne : ∀ c : Char, c.isDigit = false → d ≠ c := by
    rintro c hc rfl
    rw [h] at hc
    cases hc
  rw [longTokens?, if_neg (hne _ (by decide)), if_neg (hne _ (by decide)),
    if_neg (hne _ (by decide)), if_pos h]

theorem longTokens?_repr (n : Nat) (cs : List Char) :
    longTokens? ((Nat.repr n).toList ++ 'L' :: cs) = (longTokens? cs).map (.number n :: ·) := by
  have hdigit : ∀ d ∈ Nat.toDigits 10 n, d.isDigit = true := fun d hd =>
    Nat.isDigit_of_mem_toDigits (by decide) (by decide) hd
  have hvalue : Nat.ofDigitChars 10 (Nat.toDigits 10 n) 0 = n := Nat.ofDigitChars_ten_toDigits
  obtain ⟨d, ds, hdigits, hhead⟩ : ∃ d ds, Nat.toDigits 10 n = d :: ds ∧
      (d.toNat - '0'.toNat ≠ 0 ∨ ds = []) := by
    obtain rfl | hn := Nat.eq_zero_or_pos n
    · exact ⟨'0', [], Nat.toDigits_zero 10, .inr rfl⟩
    · obtain ⟨d, ds, hdigits, hd⟩ := toDigits_head hn
      exact ⟨d, ds, hdigits, .inl hd⟩
  rw [hdigits] at hdigit hvalue
  rw [Nat.ofDigitChars_cons, Nat.mul_zero, Nat.zero_add] at hvalue
  rw [Nat.toList_repr, hdigits, List.cons_append, longTokens?_digit (hdigit d List.mem_cons_self),
    literalTokens?_digits (fun e he => hdigit e (List.mem_cons_of_mem _ he)) hhead, hvalue]

theorem head?_repr_ne_minus (n : Nat) (cs : List Char) :
    ((Nat.repr n).toList ++ cs).head? ≠ some '-' := by
  intro h
  obtain ⟨d, ds, hdigits⟩ := List.exists_cons_of_ne_nil (intRepr_toList_ne_nil (.ofNat n))
  have hdigits : (Nat.repr n).toList = d :: ds := hdigits
  have hd : d.isDigit = true := isDigit_of_mem_repr (hdigits ▸ List.mem_cons_self)
  rw [hdigits] at h
  obtain rfl : d = '-' := by simpa using h
  cases hd

/-- The decimal form of an integer is an expression for it, unless the digits are beyond the
greatest long, as those of the least one are. -/
theorem longValue?_repr (n : Int) :
    (longValue? (Int.repr n ++ "L")).map Int64.toInt =
      if n.natAbs < Nat.pow 2 63 then some n else none := by
  cases n with
  | ofNat m =>
    have hcode : (Int.repr (.ofNat m) ++ "L").toList = (Nat.repr m).toList ++ 'L' :: [] := by
      simp [Int.repr]
    rw [longValue?, hcode, longTokens?_repr]
    by_cases hm : m < Nat.pow 2 63
    · have hvalue : (Int64.ofNat m).toInt = m := Int64.toInt_ofNat_of_lt hm
      simp [longTokens?, operandValue?, continuedValue?, hm, hvalue]
    · simp [longTokens?, operandValue?, hm]
  | negSucc m =>
    have hcode : (Int.repr (.negSucc m) ++ "L").toList =
        '-' :: ((Nat.repr (m + 1)).toList ++ 'L' :: []) := by
      simp [Int.repr]
    rw [longValue?, hcode, longTokens?, if_neg (by decide), if_pos rfl,
      if_neg (head?_repr_ne_minus _ _), longTokens?_repr]
    by_cases hm : m + 1 < Nat.pow 2 63
    · have hvalue : (-Int64.ofNat (m + 1)).toInt = -(m + 1 : Nat) :=
        Int64.toInt_neg_ofNat_of_le (Nat.le_of_lt hm)
      simp only [longTokens?, Option.map_some, Option.bind_some, operandValue?, continuedValue?, id]
      rw [if_pos hm, if_pos (by simpa using hm), Option.map_some, hvalue]
      rfl
    · simp only [longTokens?, Option.map_some, Option.bind_some, operandValue?]
      rw [if_neg hm, if_neg (by simpa using hm), Option.map_none]

example : longValue? "-9223372036854775808L" = none := by decide +kernel

theorem longValue?_longMinText :
    (longValue? (longMinText ++ "L")).map Int64.toInt = some longMin := by
  decide +kernel

/-- The double that equals the least long. -/
def leastDouble : Binary64 :=
  .finite true (Nat.pow 2 63 * Binary64.one)

theorem signedUnits_eq_least_iff {negative : Bool} {units one : Nat} (hone : 0 < one) :
    Binary64.signedUnits negative units = longMin * (one : Int) ↔
      negative = true ∧ units = Nat.pow 2 63 * one := by
  have hmin : longMin * (one : Int) = -((Nat.pow 2 63 * one : Nat) : Int) := by
    rw [Int.natCast_mul, ← Int.neg_mul]
    rfl
  have hpos : 0 < Nat.pow 2 63 * one := Nat.mul_pos (by decide) hone
  rw [hmin]
  generalize Nat.pow 2 63 * one = least at hpos
  cases negative with
  | false =>
    simp only [Binary64.signedUnits, Bool.false_eq_true, if_false, false_and, iff_false]
    omega
  | true =>
    simp only [Binary64.signedUnits, if_true, true_and]
    omega

theorem equalsInt_longMin_iff (d : Datum) :
    d.equalsInt longMin = true ↔ d = .int longMin ∨ d = .float leastDouble := by
  cases d with
  | bool b => cases b <;> simp [Datum.equalsInt, longMin]
  | int n =>
    simp only [Datum.equalsInt, beq_iff_eq, Datum.int.injEq, reduceCtorEq, or_false]
    exact eq_comm
  | float x =>
    simp only [Datum.equalsInt, reduceCtorEq, Datum.float.injEq, false_or]
    cases x with
    | finite negative units =>
      have hone : 0 < Binary64.one := by decide +kernel
      simp only [Binary64.equalsInt, beq_iff_eq, leastDouble, Binary64.finite.injEq]
      exact signedUnits_eq_least_iff hone
    | nan => simp only [Binary64.equalsInt, leastDouble, reduceCtorEq, Bool.false_eq_true]
    | infinite negative =>
      simp only [Binary64.equalsInt, leastDouble, reduceCtorEq, Bool.false_eq_true]
  | _ => simp [Datum.equalsInt]

example : Binary64.ofInt? longMin = some leastDouble := by decide +kernel

theorem plain_of_equalsInt {d : Datum} (h : d.equalsInt longMin = true) :
    plain ⟨.long, d⟩ = .ok longMinText := by
  rw [plain, if_pos (by simp [h])]

/-- A long whose value equals the least one and is no integer. -/
def EqualsLeast (s : Scalar) : Prop :=
  s.kind = .long ∧ s.value.equalsInt longMin = true ∧ ∀ n, s.value ≠ .int n

theorem equalsLeast_iff (s : Scalar) : EqualsLeast s ↔ s = ⟨.long, .float leastDouble⟩ := by
  obtain ⟨k, d⟩ := s
  constructor
  · rintro ⟨hkind, hleast, hint⟩
    obtain rfl : k = .long := hkind
    obtain rfl | rfl := (equalsInt_longMin_iff d).mp hleast
    · exact absurd rfl (hint longMin)
    · rfl
  · intro h
    cases h
    exact ⟨rfl, (equalsInt_longMin_iff _).mpr (.inr rfl), nofun⟩

theorem plain_cases (s : Scalar) :
    s = ⟨.long, .int longMin⟩ ∨ EqualsLeast s ∨ plain s = Literal.plain s := by
  obtain ⟨k, d⟩ := s
  by_cases h : k = .long ∧ d.equalsInt longMin = true
  · obtain ⟨rfl, hleast⟩ := h
    by_cases hint : ∃ n, d = .int n
    · obtain ⟨n, rfl⟩ := hint
      obtain rfl : longMin = n := beq_iff_eq.mp hleast
      exact .inl rfl
    · exact .inr (.inl ⟨rfl, hleast, fun n hn => hint ⟨n, hn⟩⟩)
  · exact .inr (.inr (if_neg (by simpa using h)))

theorem plain_of_equalsLeast {s : Scalar} (h : EqualsLeast s) : plain s = .ok longMinText := by
  obtain ⟨k, d⟩ := s
  obtain ⟨hkind, hleast, -⟩ := h
  obtain rfl : k = .long := hkind
  exact plain_of_equalsInt hleast

theorem shared_of_equalsLeast {s : Scalar} (h : EqualsLeast s) (text : String) :
    Literal.plain s ≠ .ok text := by
  obtain ⟨k, d⟩ := s
  obtain ⟨hkind, -, hint⟩ := h
  obtain rfl : k = .long := hkind
  intro htext
  obtain ⟨n, hn, -⟩ := accepts_of_plainInteger htext
  exact hint n hn

/-- A long is written as an expression for itself. -/
theorem longValue?_of_plain {d : Datum} {text : String} (h : plain ⟨.long, d⟩ = .ok text) :
    ∃ n, (longValue? (text ++ "L")).map Int64.toInt = some n ∧ d.equalsInt n = true := by
  by_cases hleast : d.equalsInt longMin = true
  · obtain rfl := Except.ok.inj ((plain_of_equalsInt hleast).symm.trans h)
    exact ⟨longMin, longValue?_longMinText, hleast⟩
  · rw [plain, if_neg (by simpa using hleast)] at h
    obtain ⟨n, rfl, hn⟩ := accepts_of_plainInteger h
    have htext : Literal.plain ⟨.long, .int n⟩ = .ok (Int.repr n) := if_pos hn
    obtain rfl := Except.ok.inj (htext.symm.trans h)
    have hne : longMin ≠ n := by simpa [Datum.equalsInt] using hleast
    have hbounds : -(2 ^ 63) ≤ n ∧ n ≤ 2 ^ 63 - 1 := by
      simpa [ScalarKind.inRange, ScalarKind.range?, ScalarKind.width?] using hn
    have hsize : n.natAbs < Nat.pow 2 63 := by
      show n.natAbs < 9223372036854775808
      rw [longMin] at hne
      omega
    refine ⟨n, ?_, by simp [Datum.equalsInt]⟩
    rw [longValue?_repr, if_pos hsize]

theorem render_long (s : Scalar) :
    render style (style.rule .long) [s] = (plain s).map (· ++ "L") := by
  have hpieces : pieces (style.rule .long).toList = [.hole .plain, .letter 'L'] := by decide
  rw [render, hpieces, fill, fill, fill]
  show ((plain s >>= fun text => .ok (text.toList ++ ['L'])) >>=
    fun cs => .ok (String.ofList cs)) = _
  cases plain s with
  | error f => rfl
  | ok text =>
    show Except.ok (String.ofList (text.toList ++ ['L'])) = Except.ok (text ++ "L")
    rw [String.ofList_append, String.ofList_toList]

theorem plain_longMin : plain ⟨.long, .int longMin⟩ = .ok longMinText :=
  plain_of_equalsInt (by decide)

theorem plain_accepts_iff (s : Scalar) :
    (((∃ text, plain s = .ok text) ↔ ∃ text, Literal.plain s = .ok text) ∧
      ∀ f, plain s = .error f ↔ Literal.plain s = .error f) ↔ ¬ EqualsLeast s := by
  constructor
  · rintro ⟨haccepts, -⟩ hleast
    obtain ⟨text, htext⟩ := haccepts.mp ⟨_, plain_of_equalsLeast hleast⟩
    exact shared_of_equalsLeast hleast text htext
  · intro hne
    obtain rfl | hleast | hs := plain_cases s
    · have hshared : Literal.plain ⟨.long, .int longMin⟩ = .ok (Int.repr longMin) := rfl
      rw [plain_longMin, hshared]
      simp
    · exact absurd hleast hne
    · rw [hs]
      simp

theorem plain_differs_iff (s : Scalar) :
    (∃ text shared, plain s = .ok text ∧ Literal.plain s = .ok shared ∧ text ≠ shared) ↔
      s = ⟨.long, .int longMin⟩ := by
  constructor
  · rintro ⟨text, shared, htext, hshared, hne⟩
    obtain rfl | hleast | hs := plain_cases s
    · rfl
    · exact absurd hshared (shared_of_equalsLeast hleast shared)
    · rw [hs, hshared] at htext
      exact absurd (Except.ok.inj htext).symm hne
  · rintro rfl
    exact ⟨_, _, plain_longMin, rfl, Language.longMinText_ne_repr longMin⟩

theorem longValue?_of_render {d : Datum} {code : String}
    (h : render style (style.rule .long) [⟨.long, d⟩] = .ok code) :
    ∃ n, (longValue? code).map Int64.toInt = some n ∧ d.equalsInt n = true := by
  rw [render_long] at h
  cases htext : plain ⟨.long, d⟩ with
  | error f =>
    rw [htext] at h
    cases h
  | ok text =>
    rw [htext] at h
    obtain rfl := Except.ok.inj h
    exact longValue?_of_plain htext

/-- Kotlin accepts and refuses what every language does, and for the same cause, up to longs that
equal the least one without being integers. Where two texts differ, the scalar is the least long. Whatever
the rule of longs writes for a long is an expression whose value the long equals. -/
theorem plain_departs_at_least (s : Scalar) :
    ((((∃ text, plain s = .ok text) ↔ ∃ text, Literal.plain s = .ok text) ∧
        ∀ f, plain s = .error f ↔ Literal.plain s = .error f) ↔ ¬ EqualsLeast s) ∧
    ((∃ text shared, plain s = .ok text ∧ Literal.plain s = .ok shared ∧ text ≠ shared) ↔
      s = ⟨.long, .int longMin⟩) ∧
    (s.kind = .long → ∀ code, render style (style.rule .long) [s] = .ok code →
      ∃ n, (longValue? code).map Int64.toInt = some n ∧ s.value.equalsInt n = true) := by
  refine ⟨plain_accepts_iff s, plain_differs_iff s, ?_⟩
  obtain ⟨k, d⟩ := s
  rintro rfl code hcode
  exact longValue?_of_render hcode

theorem plain_departs_at_least_difference :
    ¬ EqualsLeast ⟨.long, .int longMin⟩ ∧
    (∀ f, plain ⟨.long, .int longMin⟩ = .error f ↔ Literal.plain ⟨.long, .int longMin⟩ = .error f) ∧
    render style (style.rule .long) [⟨.long, .int longMin⟩] = .ok "-9223372036854775807L - 1L" ∧
    ∃ n, (longValue? "-9223372036854775807L - 1L").map Int64.toInt = some n ∧
      (Datum.int longMin).equalsInt n = true := by
  have hne : ¬ EqualsLeast ⟨.long, .int longMin⟩ := fun ⟨_, _, hint⟩ => hint longMin rfl
  have hcode : render style (style.rule .long) [⟨.long, .int longMin⟩] =
      .ok "-9223372036854775807L - 1L" := rfl
  obtain ⟨hsame, -, hvalue⟩ := plain_departs_at_least ⟨.long, .int longMin⟩
  exact ⟨hne, (hsame.mpr hne).2, hcode, hvalue rfl _ hcode⟩

/-- Equality is asked before the sort of the value is, so a double passes for the least long. -/
theorem plain_takes_double :
    plain ⟨.long, .float leastDouble⟩ = .ok "-9223372036854775807L - 1" ∧
    Literal.plain ⟨.long, .float leastDouble⟩ = .error (.notInteger (.float leastDouble)) ∧
    ¬ ∀ s : Scalar, (∃ text, plain s = .ok text) ↔ ∃ text, Literal.plain s = .ok text := by
  have hleast : EqualsLeast ⟨.long, .float leastDouble⟩ := (equalsLeast_iff _).mpr rfl
  refine ⟨plain_of_equalsLeast hleast, rfl, fun h => ?_⟩
  obtain ⟨text, htext⟩ := (h ⟨.long, .float leastDouble⟩).mp ⟨_, plain_of_equalsLeast hleast⟩
  exact shared_of_equalsLeast hleast text htext

end Kotlin

end BuildConstants
