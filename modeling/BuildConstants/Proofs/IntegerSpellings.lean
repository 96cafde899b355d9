import BuildConstants.Proofs.TrimmedCase
import BuildConstants.Value.Reading
import Mathlib.Data.List.Forall2
import Mathlib.Data.Nat.Digits.Defs

/-!
# Spellings of integers

An integer is spelled in one of four bases: an optional minus sign, the mark of the base, and its
digits with any number of zeros in front. Underscores may stand anywhere in a spelling and blanks
around it. The tagged form reads each spelling as the integer that it spells, and no text is a
spelling in two bases.
-/

namespace BuildConstants

open Number Text

namespace Number

def letterDigits : List (Char × Nat) := [
  ('a', 10), ('b', 11), ('c', 12), ('d', 13), ('e', 14), ('f', 15),
  ('A', 10), ('B', 11), ('C', 12), ('D', 13), ('E', 14), ('F', 15)]

/-- A decimal digit of any script, or a letter. -/
inductive Digit : Char → Nat → Prop
  | decimal {c : Char} {d : Nat} (h : decimalDigit? c = some d) : Digit c d
  | letter {c : Char} {d : Nat} (h : (c, d) ∈ letterDigits) : Digit c d

/-- One digit of the base or more, the most significant first. -/
inductive Digits (base : Nat) : List Char → Nat → Prop
  | intro {cs : List Char} {values : List Nat} (h : List.Forall₂ Digit cs values)
      (hsome : values ≠ []) (hbase : ∀ d ∈ values, d < base) :
      Digits base cs (Nat.ofDigits base values.reverse)

def baseMarks : List (Char × Nat) := [
  ('x', 16), ('X', 16), ('o', 8), ('O', 8), ('b', 2), ('B', 2)]

/-- What stands in front of the digits. -/
inductive Mark : Nat → List Char → Prop
  | none : Mark 10 []
  | letter {m : Char} {base : Nat} (h : (m, base) ∈ baseMarks) : Mark base ['0', m]

inductive Magnitude (base : Nat) : List Char → Nat → Prop
  | intro {mark ds : List Char} {n : Nat} (hmark : Mark base mark) (hdigits : Digits base ds n) :
      Magnitude base (mark ++ ds) n

inductive Numeral (base : Nat) : List Char → Int → Prop
  | unsigned {cs : List Char} {n : Nat} (h : Magnitude base cs n) : Numeral base cs n
  | negative {cs : List Char} {n : Nat} (h : Magnitude base cs n) : Numeral base ('-' :: cs) (-n)

/-- A numeral with underscores anywhere in it and blanks around it. -/
inductive Spelled (base : Nat) (n : Int) (s : String) : Prop
  | intro {before body behind : List Char} (hs : s.toList = before ++ (body ++ behind))
      (hbefore : ∀ c ∈ before, isBlank c = true) (hbehind : ∀ c ∈ behind, isBlank c = true)
      (h : Numeral base (body.filter (· != '_')) n)

/-! ### Characters -/

def digitTable : List (Nat × Nat) :=
  zeroDigits.map fun z => (z, z + 9)

theorem digitTable_apart : apart digitTable blankTable = true := by
  decide +kernel

theorem decimalDigit?_cases {c : Char} {d : Nat} (h : decimalDigit? c = some d) :
    d < 10 ∧ (c.toNat = 48 + d ∨ 128 ≤ c.toNat) ∧ covers digitTable c = true := by
  rw [decimalDigit?] at h
  split at h
  · split at h
    · rename_i hdigit
      obtain rfl := Option.some.inj h
      have hbounds : 48 ≤ c.toNat ∧ c.toNat ≤ 57 := by
        simpa [Char.isDigit, UInt32.le_iff_toNat_le] using hdigit
      refine ⟨by omega, .inl (by omega), covers_eq_true_iff.mpr ⟨(48, 57), ?_, hbounds⟩⟩
      decide
    · cases h
  · obtain ⟨z, hz, rfl⟩ := Option.map_eq_some_iff.mp h
    have hbounds : z ≤ c.toNat ∧ c.toNat ≤ z + 9 := by simpa using List.find?_some hz
    have hmem : (z, z + 9) ∈ digitTable := List.mem_map_of_mem (List.mem_of_find?_eq_some hz)
    exact ⟨by omega, .inr (by omega), covers_eq_true_iff.mpr ⟨_, hmem, hbounds⟩⟩

theorem isBlank_of_decimalDigit {c : Char} {d : Nat} (h : decimalDigit? c = some d) :
    isBlank c = false := by
  cases hblank : isBlank c with
  | false => rfl
  | true =>
    have hcovers := (decimalDigit?_cases h).2.2
    rw [covers_of_apart digitTable_apart hblank] at hcovers
    cases hcovers

theorem asciiForm_of_decimalDigit {c : Char} {d : Nat} (h : decimalDigit? c = some d) :
    asciiForm c = Char.ofNat (48 + d) := by
  obtain ⟨hd, hc | hc, -⟩ := decimalDigit?_cases h
  · rw [asciiForm, if_pos (by omega), ← hc, Char.ofNat_toNat]
  · simp [asciiForm, isBlank_of_decimalDigit h, h, show ¬ c.toNat < 127 by omega]

namespace Digit

variable {c : Char} {d : Nat}

theorem digitValue? (h : Digit c d) : digitValue? (asciiForm c) = some d := by
  cases h with
  | decimal h =>
    have hall : ∀ d < 10, Number.digitValue? (Char.ofNat (48 + d)) = some d := by decide
    rw [asciiForm_of_decimalDigit h, hall d (decimalDigit?_cases h).1]
  | letter h =>
    have hall : ∀ p ∈ letterDigits, Number.digitValue? (asciiForm p.1) = some p.2 := by decide
    exact hall (c, d) h

theorem isBlank (h : Digit c d) : isBlank c = false := by
  cases h with
  | decimal h => exact isBlank_of_decimalDigit h
  | letter h =>
    have hall : ∀ p ∈ letterDigits, Text.isBlank p.1 = false := by decide
    exact hall (c, d) h

end Digit

theorem digitValue?_eq_some {c : Char} {d : Nat} (h : digitValue? c = some d) :
    c ≠ '_' ∧ c ≠ '-' ∧ c ≠ '+' ∧ isAsciiBlank c = false := by
  refine ⟨?_, ?_, ?_, ?_⟩
  · rintro rfl
    cases h
  · rintro rfl
    cases h
  · rintro rfl
    cases h
  · cases hblank : isAsciiBlank c with
    | false => rfl
    | true =>
      have hall : ∀ n < 33, digitValue? (Char.ofNat n) = none := by decide
      have hc : c.toNat < 33 := by
        rw [isAsciiBlank, Bool.or_eq_true, Bool.and_eq_true, beq_iff_eq, decide_eq_true_eq,
          decide_eq_true_eq] at hblank
        obtain rfl | hblank := hblank
        · decide
        · omega
      have hnone := hall c.toNat hc
      rw [Char.ofNat_toNat, h] at hnone
      cases hnone

/-- No blank and no underscore, to either way of trimming. -/
structure Solid (c : Char) : Prop where
  blank : isBlank c = false
  space : isAsciiBlank (asciiForm c) = false
  line : c ≠ '_'

theorem Digit.solid {c : Char} {d : Nat} (h : Digit c d) : Solid c where
  blank := h.isBlank
  space := (digitValue?_eq_some h.digitValue?).2.2.2
  line := by
    rintro rfl
    exact (digitValue?_eq_some h.digitValue?).1 (by decide)

/-! ### Digits -/

theorem readDigits_of_digits {base : Nat} {cs : List Char} {values : List Nat}
    (h : List.Forall₂ Digit cs values) (hbase : ∀ d ∈ values, d < base) :
    ∀ (value : Nat) (afterDigit : Bool), (values ≠ [] ∨ afterDigit = true) →
      readDigits base value afterDigit (cs.map asciiForm) =
        some (values.foldl (fun n d => n * base + d) value) := by
  induction h with
  | nil =>
    intro value afterDigit hsome
    obtain rfl : afterDigit = true := hsome.resolve_left (fun h => h rfl)
    rfl
  | @cons c d cs values hc h ih =>
    intro value afterDigit hsome
    obtain ⟨hd, hrest⟩ := List.forall_mem_cons.mp hbase
    have hvalue := hc.digitValue?
    rw [List.map_cons, readDigits, if_neg (digitValue?_eq_some hvalue).1, hvalue]
    simp only [hd, if_true]
    exact ih hrest _ true (.inr rfl)

theorem Digits.readNatural {base n : Nat} {cs : List Char} (h : Digits base cs n) :
    readNatural base (cs.map asciiForm) = some n := by
  cases h with
  | @intro values h hsome hbase =>
    rw [Number.readNatural, readDigits_of_digits h hbase 0 false (.inl hsome),
      Nat.ofDigits_eq_foldr, List.foldr_reverse]
    simp only [Nat.cast_id, Nat.add_comm, Nat.mul_comm]

theorem Digits.exists_head {base n : Nat} {cs : List Char} (h : Digits base cs n) :
    ∃ c rest d, cs = c :: rest ∧ Digit c d ∧ d < base := by
  cases h with
  | @intro values h hsome hbase =>
    cases h with
    | nil => exact absurd rfl hsome
    | cons hc h => exact ⟨_, _, _, rfl, hc, hbase _ List.mem_cons_self⟩

theorem Digits.solid {base n : Nat} {cs : List Char} (h : Digits base cs n) :
    ∀ c ∈ cs, Solid c := by
  cases h with
  | @intro values h hsome hbase =>
    clear hsome hbase
    induction h with
    | nil => simp
    | cons hc h ih => exact List.forall_mem_cons.mpr ⟨hc.solid, ih⟩

/-! ### Marks -/

/-- What a mark is to both attempts at reading: no digit in base ten, and the mark of its base. -/
theorem of_mem_baseMarks {m : Char} {base : Nat} (h : (m, base) ∈ baseMarks) :
    asciiForm m = m ∧ markBase? m = some base ∧ Solid m ∧
      ∀ d, digitValue? m = some d → 10 ≤ d := by
  have hall : ∀ p ∈ baseMarks, asciiForm p.1 = p.1 ∧ markBase? p.1 = some p.2 ∧
      (isBlank p.1 = false ∧ isAsciiBlank (asciiForm p.1) = false ∧ p.1 ≠ '_') ∧
      (digitValue? p.1).all (10 ≤ ·) = true := by decide
  obtain ⟨hascii, hmark, ⟨hblank, hspace, hline⟩, hdigit⟩ := hall (m, base) h
  refine ⟨hascii, hmark, ⟨hblank, hspace, hline⟩, fun d hd => ?_⟩
  simpa [hd] using hdigit

theorem readNatural_of_mark {m : Char} {base : Nat} (h : (m, base) ∈ baseMarks)
    (rest : List Char) : readNatural 10 ('0' :: m :: rest) = none := by
  obtain ⟨-, -, hsolid, hdigit⟩ := of_mem_baseMarks h
  have hzero : readNatural 10 ('0' :: m :: rest) = readDigits 10 0 true (m :: rest) := rfl
  rw [hzero, readDigits, if_neg hsolid.line]
  split
  · rename_i d hd
    rw [if_neg (Nat.not_lt.mpr (hdigit d hd))]
  · rfl

section Magnitude

variable {base n : Nat} {cs : List Char}

/-- Base ten is read at the first attempt, which refuses the marks of the other bases. -/
theorem Magnitude.attempts (h : Magnitude base cs n) :
    (base = 10 ∧ readNatural 10 (cs.map asciiForm) = some n) ∨
      (readNatural 10 (cs.map asciiForm) = none ∧ ∃ m rest, cs.map asciiForm = '0' :: m :: rest ∧
        markBase? m = some base ∧ readNatural base rest = some n) := by
  cases h with
  | @intro mark ds n hmark hdigits =>
    cases hmark with
    | none => exact .inl ⟨rfl, hdigits.readNatural⟩
    | @letter m base h =>
      obtain ⟨hascii, hbase, -⟩ := of_mem_baseMarks h
      have hmap : (['0', m] ++ ds).map asciiForm = '0' :: m :: ds.map asciiForm := by
        rw [List.map_append, List.map_cons, List.map_cons, hascii]
        rfl
      rw [hmap]
      exact .inr ⟨readNatural_of_mark h _, m, _, rfl, hbase, hdigits.readNatural⟩

theorem Magnitude.read (h : Magnitude base cs n) :
    (readNatural 10 (cs.map asciiForm)).or (readMarked (cs.map asciiForm)) = some n := by
  obtain ⟨-, hten⟩ | ⟨hten, m, rest, hcs, hbase, hrest⟩ := h.attempts
  · rw [hten, Option.some_or]
  · rw [hten, hcs, Option.none_or]
    simp only [readMarked, hbase, hrest]

theorem Magnitude.base_unique {base' n' : Nat} (h : Magnitude base cs n)
    (h' : Magnitude base' cs n') : base' = base := by
  obtain ⟨rfl, hten⟩ | ⟨hten, m, rest, hcs, hbase, -⟩ := h.attempts
  · obtain ⟨rfl, -⟩ | ⟨hten', -⟩ := h'.attempts
    · rfl
    · rw [hten] at hten'
      cases hten'
  · obtain ⟨-, hten'⟩ | ⟨-, m', rest', hcs', hbase', -⟩ := h'.attempts
    · rw [hten] at hten'
      cases hten'
    · rw [hcs] at hcs'
      cases hcs'
      exact Option.some.inj (hbase'.symm.trans hbase)

theorem Magnitude.solid (h : Magnitude base cs n) : ∀ c ∈ cs, Solid c := by
  cases h with
  | intro hmark hdigits =>
    cases hmark with
    | none => exact hdigits.solid
    | letter h =>
      have hzero : Solid '0' := ⟨by decide, by decide, by decide⟩
      obtain ⟨-, -, hsolid, -⟩ := of_mem_baseMarks h
      exact List.forall_mem_cons.mpr ⟨hzero, List.forall_mem_cons.mpr ⟨hsolid, hdigits.solid⟩⟩

theorem Magnitude.exists_head (h : Magnitude base cs n) :
    ∃ c rest d, cs = c :: rest ∧ Digit c d := by
  cases h with
  | intro hmark hdigits =>
    cases hmark with
    | none =>
      obtain ⟨c, rest, d, rfl, hc, -⟩ := hdigits.exists_head
      exact ⟨c, rest, d, rfl, hc⟩
    | letter h => exact ⟨'0', _, 0, rfl, .decimal (by decide)⟩

end Magnitude

/-! ### Signs -/

theorem readSigned_minus (read : List Char → Option Nat) (rest : List Char) :
    readSigned read ('-' :: rest) = (read rest).map fun n : Nat => (-n : Int) := by
  rw [readSigned]
  cases read rest <;> rfl

theorem readSigned_digit {c : Char} {d : Nat} (h : digitValue? c = some d)
    (read : List Char → Option Nat) (rest : List Char) :
    readSigned read (c :: rest) = (read (c :: rest)).map Int.ofNat := by
  obtain ⟨-, hminus, hplus, -⟩ := digitValue?_eq_some h
  rw [readSigned]
  · rintro rest ⟨⟩
    exact hminus rfl
  · rintro rest ⟨⟩
    exact hplus rfl

theorem Magnitude.readSigned {base n : Nat} {cs : List Char} (h : Magnitude base cs n)
    (read : List Char → Option Nat) :
    readSigned read (cs.map asciiForm) = (read (cs.map asciiForm)).map Int.ofNat := by
  obtain ⟨c, rest, d, rfl, hc⟩ := h.exists_head
  exact readSigned_digit hc.digitValue? read _

theorem trimAscii_eq {cs : List Char} (h : ∀ c ∈ cs, isAsciiBlank c = false) :
    trimAscii cs = cs := by
  have hkeep (ds : List Char) (hds : ∀ c ∈ ds, isAsciiBlank c = false) :
      ds.dropWhile isAsciiBlank = ds := by
    cases ds with
    | nil => rfl
    | cons c rest => exact List.dropWhile_cons_of_neg (by simp [hds c List.mem_cons_self])
  rw [trimAscii, hkeep cs h, hkeep cs.reverse (by simpa using h), List.reverse_reverse]

/-! ### Numerals -/

section Numeral

variable {base : Nat} {n : Int} {cs : List Char}

theorem Numeral.solid (h : Numeral base cs n) : ∀ c ∈ cs, Solid c := by
  cases h with
  | unsigned h => exact h.solid
  | negative h =>
    exact List.forall_mem_cons.mpr ⟨⟨by decide, by decide, by decide⟩, h.solid⟩

theorem Numeral.ne_nil (h : Numeral base cs n) : cs ≠ [] := by
  cases h with
  | unsigned h =>
    obtain ⟨c, rest, d, rfl, -⟩ := h.exists_head
    exact List.cons_ne_nil c rest
  | negative h => exact List.cons_ne_nil _ _

theorem Numeral.read (h : Numeral base cs n) :
    (readInteger? cs).or (readMarkedInteger? cs) = some n := by
  have htrim : trimAscii (cs.map asciiForm) = cs.map asciiForm := by
    refine trimAscii_eq fun c hc => ?_
    obtain ⟨d, hd, rfl⟩ := List.mem_map.mp hc
    exact (h.solid d hd).space
  rw [readInteger?, readMarkedInteger?, htrim]
  cases h with
  | unsigned h =>
    rw [h.readSigned, h.readSigned, ← Option.map_or, h.read]
    rfl
  | negative h =>
    have hminus : asciiForm '-' = '-' := by decide
    rw [List.map_cons, hminus, readSigned_minus, readSigned_minus, ← Option.map_or, h.read]
    rfl

theorem Numeral.base_unique {base' : Nat} {n' : Int} (h : Numeral base cs n)
    (h' : Numeral base' cs n') : base' = base := by
  have hminus {base n : Nat} {cs : List Char} (h : Magnitude base ('-' :: cs) n) : False := by
    obtain ⟨c, rest, d, heq, hc⟩ := h.exists_head
    cases heq
    exact (digitValue?_eq_some hc.digitValue?).2.1 (by decide)
  cases h with
  | unsigned h =>
    cases h' with
    | unsigned h' => exact h.base_unique h'
    | negative h' => exact (hminus h).elim
  | negative h =>
    cases h' with
    | unsigned h' => exact (hminus h').elim
    | negative h' => exact h.base_unique h'

end Numeral

/-! ### Spellings -/

section Spelled

variable {base : Nat} {n : Int} {s : String}

/-- Blanks stand only around the numeral, so trimming finds its ends. -/
theorem Spelled.numeral (h : Spelled base n s) : Numeral base (withoutSeparators s) n := by
  obtain @⟨before, body, behind, hs, hbefore, hbehind, h⟩ := h
  have hbody : ∀ c ∈ body, isBlank c = false := by
    intro c hc
    by_cases hline : c = '_'
    · rw [hline]
      decide
    · exact (h.solid c (List.mem_filter.mpr ⟨hc, by simpa using hline⟩)).blank
  obtain ⟨b, rest, rfl⟩ : ∃ b rest, body = b :: rest :=
    List.exists_cons_of_ne_nil (by rintro rfl; exact h.ne_nil rfl)
  have hleft : trimLeft (before ++ (b :: rest ++ behind)) = b :: rest ++ behind :=
    trimLeft_eq hbefore fun c hc => hbody c (List.mem_cons.mpr (.inl (Option.some.inj hc).symm))
  have hright : trimRight (b :: rest ++ behind) = b :: rest :=
    trimRight_eq hbehind fun c hc => hbody c (List.mem_of_mem_getLast? hc)
  rwa [withoutSeparators, hs, hleft, hright]

theorem Spelled.read (h : Spelled base n s) : readTaggedInteger? s = some n :=
  h.numeral.read

theorem digit_hexDigit {d : Nat} (h : d < 16) : Digit (hexDigit d) d := by
  have hall : ∀ d < 16, decimalDigit? (hexDigit d) = some d ∨ (hexDigit d, d) ∈ letterDigits := by
    decide
  obtain hdecimal | hletter := hall d h
  · exact .decimal hdecimal
  · exact .letter hletter

theorem exists_digits {base : Nat} (hlo : 2 ≤ base) (hhi : base ≤ 16) (n : Nat) :
    ∃ cs, Digits base cs n := by
  have hdigits : ∀ d ∈ 0 :: (Nat.digits base n).reverse, d < base := by
    intro d hd
    obtain rfl | hd := List.mem_cons.mp hd
    · omega
    · exact Nat.digits_lt_base hlo (List.mem_reverse.mp hd)
  have hspelled : List.Forall₂ Digit
      ((0 :: (Nat.digits base n).reverse).map hexDigit) (0 :: (Nat.digits base n).reverse) := by
    rw [List.forall₂_map_left_iff, List.forall₂_same]
    exact fun d hd => digit_hexDigit (Nat.lt_of_lt_of_le (hdigits d hd) hhi)
  have h := Digits.intro hspelled (List.cons_ne_nil _ _) hdigits
  rw [List.reverse_cons, List.reverse_reverse, Nat.ofDigits_append, Nat.ofDigits_digits] at h
  exact ⟨_, by simpa using h⟩

theorem exists_mark {base : Nat} (h : base ∈ [10, 16, 8, 2]) : ∃ mark, Mark base mark := by
  simp only [List.mem_cons, List.not_mem_nil, or_false] at h
  obtain rfl | rfl | rfl | rfl := h
  · exact ⟨[], .none⟩
  · exact ⟨['0', 'x'], .letter (by decide)⟩
  · exact ⟨['0', 'o'], .letter (by decide)⟩
  · exact ⟨['0', 'b'], .letter (by decide)⟩

theorem Numeral.spelled {cs : List Char} (h : Numeral base cs n) :
    Spelled base n (String.ofList cs) := by
  have hfilter : cs.filter (· != '_') = cs :=
    List.filter_eq_self.mpr fun c hc => by simpa using (h.solid c hc).line
  have hs : (String.ofList cs).toList = [] ++ (cs ++ []) := by simp
  exact .intro hs (by simp) (by simp) (by rwa [hfilter])

theorem exists_spelled (hbase : base ∈ [10, 16, 8, 2]) (n : Int) : ∃ s, Spelled base n s := by
  have hbounds : ∀ base ∈ [10, 16, 8, 2], 2 ≤ base ∧ base ≤ 16 := by decide
  obtain ⟨hlo, hhi⟩ := hbounds base hbase
  obtain ⟨mark, hmark⟩ := exists_mark hbase
  obtain ⟨ds, hdigits⟩ := exists_digits hlo hhi n.natAbs
  have hmagnitude := Magnitude.intro hmark hdigits
  obtain hn | hn := Int.natAbs_eq n
  · rw [hn]
    exact ⟨_, (Numeral.unsigned hmagnitude).spelled⟩
  · rw [hn]
    exact ⟨_, (Numeral.negative hmagnitude).spelled⟩

end Spelled

end Number

namespace Scalar

/-- Every integer has spellings in the four bases, and a spelling belongs to one base alone. The
tags of all integral kinds read each spelling as its integer. -/
theorem read_every_spelling :
    (∀ base ∈ [10, 16, 8, 2], ∀ n : Int, ∃ s, Spelled base n s) ∧
    ∀ (base : Nat) (n : Int) (s : String), Spelled base n s →
      readTaggedInteger? s = some n ∧
      (∀ kind : ScalarKind, kind.isIntegral = true → read kind s = .ok ⟨kind, .int n⟩) ∧
      ∀ base' n', Spelled base' n' s → base' = base ∧ n' = n := by
  constructor
  · intro base h n
    exact exists_spelled h n
  · intro base n s h
    refine ⟨h.read, ?_, ?_⟩
    · intro kind hkind
      rw [read, if_pos hkind, h.read]
    · intro base' n' h'
      exact ⟨h.numeral.base_unique h'.numeral, Option.some.inj (h'.read.symm.trans h.read)⟩

/-- Underscores at both ends and inside of the mark, and digits of two scripts. A zero in front does
not choose base eight. -/
theorem read_every_spelling_mixed :
    (∃ s, Spelled 8 (-9) s) ∧
    (Spelled 16 (-255) "\u2003\n_-0_X0F_f_ " ∧
      read .long "\u2003\n_-0_X0F_f_ " = .ok ⟨.long, .int (-255)⟩) ∧
    Spelled 10 12 "0_1\u0662" ∧ read .byte "0_1\u0662" = .ok ⟨.byte, .int 12⟩ ∧
    ¬ Spelled 8 10 "0_1\u0662" := by
  have hsixteen : Digits 16 ['0', 'F', 'f'] 255 :=
    @Digits.intro 16 _ [0, 15, 15] (.cons (.decimal (by decide)) (.cons (.letter (by decide))
      (.cons (.letter (by decide)) .nil))) (by decide) (by decide)
  have hten : Digits 10 ['0', '1', '\u0662'] 12 :=
    @Digits.intro 10 _ [0, 1, 2] (.cons (.decimal (by decide)) (.cons (.decimal (by decide))
      (.cons (.decimal (by decide)) .nil))) (by decide) (by decide)
  have hnegative : Spelled 16 (-255) "\u2003\n_-0_X0F_f_ " :=
    @Spelled.intro 16 _ _ ['\u2003', '\n'] "_-0_X0F_f_".toList [' '] (by decide)
      (by simp [isBlank]) (by simp [isBlank])
      (.negative (.intro (.letter (show ('X', 16) ∈ baseMarks by decide)) hsixteen))
  have hscripts : Spelled 10 12 "0_1\u0662" :=
    @Spelled.intro 10 _ _ [] "0_1\u0662".toList [] (by decide) (by simp) (by simp)
      (.unsigned (.intro .none hten))
  obtain ⟨-, hread, -⟩ := read_every_spelling.2 _ _ _ hnegative
  obtain ⟨-, hreadScripts, hunique⟩ := read_every_spelling.2 _ _ _ hscripts
  refine ⟨read_every_spelling.1 8 (by decide) (-9), ⟨hnegative, hread .long rfl⟩, hscripts,
    hreadScripts .byte rfl, fun hoctal => ?_⟩
  exact absurd (hunique 8 10 hoctal).1 (by decide)

end Scalar

end BuildConstants
