import Mathlib.Algebra.Group.Nat.Defs
import BuildConstants.Proofs.ScalarLegibility

/-!
# Written elements

What may stand in a set is legible in its written form: a quoted text can be read back character
by character, and containers show where each of their elements ends. So different elements have
different written forms, and this holds for different enumerations of one set, too.
-/

namespace BuildConstants

open Literal Outcome Text

namespace Text

/-- The character behind a backslash and the one that both stand for. -/
def named? (q e : Char) : Option Char :=
  if e = q ∨ e = '\\' then some e
  else if e = 'n' then some '\n'
  else if e = 'r' then some '\r'
  else if e = 't' then some '\t'
  else none

/-- How many digits follow a mark. -/
def digitsBehind? (e : Char) : Option Nat :=
  if e = 'x' then some 2
  else if e = 'u' then some 4
  else if e = 'U' then some 8
  else none

/-- The forms of a character between quotes. -/
inductive QuotedAs (q c : Char) : List Char → Prop
  | self (hslash : c ≠ '\\') (hquote : c ≠ q) : QuotedAs q c [c]
  | named {e : Char} (he : named? q e = some c) : QuotedAs q c ['\\', e]
  | digits {e : Char} {width : Nat} (he : digitsBehind? e = some width)
      (hc : codePoint c < 16 ^ width) : QuotedAs q c ('\\' :: e :: hexDigits width (codePoint c))

/-- A stand-in has a surrogate as its code point, every other character its own number. -/
theorem codePoint_cases (c : Char) :
    (0xf0000 ≤ c.toNat ∧ c.toNat < 0xf0800 ∧ codePoint c = c.toNat - 0xf0000 + 0xd800) ∨
    (c.toNat < 0xd800 ∨ 0xdfff < c.toNat ∧ c.toNat < 0x110000) ∧ codePoint c = c.toNat := by
  unfold codePoint
  split
  · rename_i h
    obtain ⟨hlow, hhigh⟩ := Bool.and_eq_true_iff.mp h
    exact .inl ⟨of_decide_eq_true hlow, of_decide_eq_true hhigh, rfl⟩
  · exact .inr ⟨c.valid, rfl⟩

theorem codePoint_lt (c : Char) : codePoint c < 0x110000 := by
  have hc := codePoint_cases c
  omega

theorem codePoint_inj {c d : Char} (h : codePoint c = codePoint d) : c = d := by
  have hc := codePoint_cases c
  have hd := codePoint_cases d
  apply Char.toNat_inj.mp
  omega

theorem hexDigit_inj : ∀ n < 16, ∀ m < 16, hexDigit n = hexDigit m → n = m := by
  decide

theorem length_hexDigits (width n : Nat) : (hexDigits width n).length = width := by
  induction width generalizing n with
  | zero => rfl
  | succ width ih => simp [hexDigits, ih]

theorem hexDigits_inj {width n m : Nat} (hn : n < 16 ^ width) (hm : m < 16 ^ width)
    (h : hexDigits width n = hexDigits width m) : n = m := by
  induction width generalizing n m with
  | zero => omega
  | succ width ih =>
    obtain ⟨hfront, hlast⟩ := List.append_inj' h rfl
    have hlt {k : Nat} (hk : k < 16 ^ (width + 1)) : k / 16 < 16 ^ width :=
      Nat.div_lt_of_lt_mul (by rwa [← Nat.pow_succ'])
    have hfront := ih (hlt hn) (hlt hm) hfront
    have hlast := hexDigit_inj _ (Nat.mod_lt n (by decide)) _ (Nat.mod_lt m (by decide))
      (List.singleton_inj.mp hlast)
    omega

variable {q c d : Char} {cs ds xs ys : List Char}

theorem quotedAs_escapeUnprintable (q c : Char) :
    QuotedAs q c (escapeUnprintable (codePoint c)) := by
  unfold escapeUnprintable
  split
  · rename_i h
    exact .digits (by decide) h
  · split
    · rename_i h
      exact .digits (by decide) h
    · have hc := codePoint_lt c
      exact .digits (by decide) (by omega)

theorem named?_letters (hq : IsQuote q) : named? q 'n' = some '\n' ∧ named? q 'r' = some '\r' ∧
    named? q 't' = some '\t' := by
  obtain rfl | rfl := hq
  · decide
  · decide

theorem quotedAs_quoteChar (hq : IsQuote q) (c : Char) : QuotedAs q c (quoteChar q c) := by
  obtain ⟨hn, hr, ht⟩ := named?_letters hq
  unfold quoteChar
  by_cases hquote : c = q ∨ c = '\\'
  · rw [if_pos (by simpa using hquote)]
    exact .named (by rw [named?, if_pos hquote])
  rw [if_neg (by simpa using hquote)]
  rw [not_or] at hquote
  split
  · rename_i h
    exact .named (by rw [hn, h])
  split
  · rename_i h
    exact .named (by rw [hr, h])
  split
  · rename_i h
    exact .named (by rw [ht, h])
  split
  · exact .self hquote.2 hquote.1
  · exact quotedAs_escapeUnprintable q c

theorem digitsBehind?_of_named? (hq : IsQuote q) {e : Char} (h : named? q e = some c) :
    digitsBehind? e = none := by
  unfold named? at h
  split at h
  · rename_i he
    obtain rfl | rfl := he
    · obtain rfl | rfl := hq <;> rfl
    · rfl
  repeat' split at h
  all_goals first | cases h; done | (subst_vars; rfl)

/-- A quoted character shows which one it is and where it ends. -/
theorem QuotedAs.append_inj (hq : IsQuote q) (hc : QuotedAs q c cs) (hd : QuotedAs q d ds)
    (h : cs ++ xs = ds ++ ys) : c = d ∧ xs = ys := by
  cases hc with
  | self hslash hquote =>
    cases hd with
    | self => exact List.cons.inj h
    | named | digits => exact absurd (List.cons.inj h).1 hslash
  | @named e he =>
    cases hd with
    | self hslash => exact absurd (List.cons.inj h).1.symm hslash
    | @named e' he' =>
      obtain ⟨rfl, hrest⟩ := List.cons.inj (List.cons.inj h).2
      exact ⟨Option.some.inj (he.symm.trans he'), hrest⟩
    | @digits e' width he' =>
      obtain ⟨rfl, -⟩ := List.cons.inj (List.cons.inj h).2
      rw [digitsBehind?_of_named? hq he] at he'
      cases he'
  | @digits e width he hc =>
    cases hd with
    | self hslash => exact absurd (List.cons.inj h).1.symm hslash
    | @named e' he' =>
      obtain ⟨rfl, -⟩ := List.cons.inj (List.cons.inj h).2
      rw [digitsBehind?_of_named? hq he'] at he
      cases he
    | @digits e' width' he' hd =>
      obtain ⟨rfl, hrest⟩ := List.cons.inj (List.cons.inj h).2
      obtain rfl := Option.some.inj (he.symm.trans he')
      obtain ⟨hdigits, hrest⟩ := List.append_inj hrest (by rw [length_hexDigits, length_hexDigits])
      exact ⟨codePoint_inj (hexDigits_inj hc hd hdigits), hrest⟩

theorem QuotedAs.ne_quote (hq : IsQuote q) (hc : QuotedAs q c cs) : cs ++ xs ≠ q :: ys := by
  cases hc with
  | self hslash hquote => exact fun h => hquote (List.cons.inj h).1
  | named | digits => exact fun h => hq.ne_slash (List.cons.inj h).1

/-- Quoted characters are read one after the other up to the closing quote. -/
theorem quoteChars_inj (hq : IsQuote q)
    (h : cs.flatMap (quoteChar q) ++ q :: xs = ds.flatMap (quoteChar q) ++ q :: ys) :
    cs = ds ∧ xs = ys := by
  induction cs generalizing ds with
  | nil =>
    cases ds with
    | nil => exact ⟨rfl, (List.cons.inj h).2⟩
    | cons d ds =>
      rw [List.flatMap_cons, List.append_assoc] at h
      exact absurd h.symm ((quotedAs_quoteChar hq d).ne_quote hq)
  | cons c cs ih =>
    cases ds with
    | nil =>
      rw [List.flatMap_cons, List.append_assoc] at h
      exact absurd h ((quotedAs_quoteChar hq c).ne_quote hq)
    | cons d ds =>
      rw [List.flatMap_cons, List.flatMap_cons, List.append_assoc, List.append_assoc] at h
      obtain ⟨rfl, hrest⟩ := (quotedAs_quoteChar hq c).append_inj hq (quotedAs_quoteChar hq d) h
      exact (ih hrest).imp_left (congrArg (c :: ·))

theorem quoted_append_inj {s t : String} (h : (quoted s).toList ++ xs = (quoted t).toList ++ ys) :
    s = t ∧ xs = ys := by
  simp only [quoted, String.toList_ofList, List.cons_append, List.append_assoc, List.nil_append]
    at h
  obtain ⟨hq, hrest⟩ := List.cons.inj h
  rw [← hq] at hrest
  obtain ⟨hs, hrest⟩ := quoteChars_inj (enclosingQuote_isQuote s.toList) hrest
  exact ⟨String.toList_inj.mp hs, hrest⟩

end Text

namespace Datum

/-- What may stand in a set: integers, booleans, texts, and tuples and frozen sets of these. -/
inductive Element : Datum → Prop
  | bool (b : Bool) : Element (.bool b)
  | int (n : Int) : Element (.int n)
  | text (s : String) : Element (.text s)
  | tuple {items : List Datum} (h : ∀ d ∈ items, Element d) : Element (.tuple items)
  | frozenSet {items : List Datum} (h : ∀ d ∈ items, Element d) : Element (.frozenSet items)

theorem writtenItems_eq (items : List Datum) : writtenItems items = items.map written := by
  induction items with
  | nil => rfl
  | cons d rest ih => exact congrArg (d.written :: ·) ih

/-- What follows the elements of a tuple; a comma tells a tuple of one element. -/
def tupleClosing : List Datum → List Char
  | [_] => [',', ')']
  | _ => [')']

theorem toList_tuple (items : List Datum) : (tuple items).written.toList =
    '(' :: ((commaSeparated (items.map written)).toList ++ tupleClosing items) := by
  show (tupleForm (writtenItems items)).toList = _
  rw [writtenItems_eq]
  match items with
  | [] => rfl
  | [d] => simp [tupleForm, tupleClosing, commaSeparated]
  | d :: e :: rest => simp [tupleForm, tupleClosing]

theorem toList_frozenSet_cons (d : Datum) (rest : List Datum) :
    (frozenSet (d :: rest)).written.toList = "frozenset(\x7b".toList ++
      ((commaSeparated ((d :: rest).map written)).toList ++ ['\x7d', ')']) := by
  show ("frozenset(" ++ braced (writtenItems (d :: rest)) ++ ")").toList = _
  rw [writtenItems_eq]
  simp [braced]

/-- The type that an element begins like. -/
def sortOf (c : Char) : String :=
  if c = 'T' ∨ c = 'F' then "bool"
  else if Number.isNumeral c then "int"
  else if c = singleQuote ∨ c = doubleQuote then "str"
  else if c = '(' then "tuple"
  else "frozenset"

theorem sortOf_numeral {c : Char} (h : Number.isNumeral c = true) : sortOf c = "int" := by
  have hletter : ¬ (c = 'T' ∨ c = 'F') := by
    rintro (rfl | rfl)
    · revert h
      decide
    · revert h
      decide
  rw [sortOf, if_neg hletter, if_pos h]

theorem Element.exists_head {d : Datum} (h : Element d) :
    ∃ c cs, d.written.toList = c :: cs ∧ isStop c = false ∧ sortOf c = d.typeName := by
  cases h with
  | bool b =>
    cases b
    · exact ⟨'F', "alse".toList, rfl, rfl, rfl⟩
    · exact ⟨'T', "rue".toList, rfl, rfl, rfl⟩
  | int n =>
    obtain ⟨c, cs, hcs⟩ := List.exists_cons_of_ne_nil (Number.intRepr_toList_ne_nil n)
    have hc : Number.isNumeral c = true := by
      apply Number.isNumeral_of_mem_repr (n := n)
      rw [hcs]
      exact List.mem_cons_self
    exact ⟨c, cs, hcs, Number.isStop_of_isNumeral hc, sortOf_numeral hc⟩
  | text s =>
    refine ⟨enclosingQuote s.toList, _, String.toList_ofList, ?_⟩
    obtain hq | hq := enclosingQuote_isQuote s.toList
    · rw [hq]
      exact ⟨rfl, rfl⟩
    · rw [hq]
      exact ⟨rfl, rfl⟩
  | @tuple items _ => exact ⟨'(', _, toList_tuple items, rfl, rfl⟩
  | @frozenSet items _ =>
    cases items with
    | nil => exact ⟨'f', "rozenset()".toList, rfl, rfl, rfl⟩
    | cons d rest => exact ⟨_, _, toList_frozenSet_cons d rest, rfl, rfl⟩

theorem Element.not_ends {d : Datum} (h : Element d) (xs : List Char) :
    ¬ Ends (d.written.toList ++ xs) := by
  obtain ⟨c, cs, hcs, hc, -⟩ := h.exists_head
  simp [hcs, Ends, hc]

theorem Element.typeName_eq {d e : Datum} (hd : Element d) (he : Element e) {xs ys : List Char}
    (h : d.written.toList ++ xs = e.written.toList ++ ys) : d.typeName = e.typeName := by
  obtain ⟨c, cs, hcs, -, hc⟩ := hd.exists_head
  obtain ⟨c', cs', hcs', -, hc'⟩ := he.exists_head
  rw [hcs, hcs'] at h
  rw [← hc, ← hc', (List.cons.inj h).1]

/-- The written form as a text that never fails. -/
def writing (d : Datum) : Except Fault String :=
  .ok d.written

theorem collect_writing (items : List Datum) : collect writing items = .ok (items.map written) := by
  induction items with
  | nil => rfl
  | cons d rest ih => simp [collect, writing, ih]

theorem legible_writing {d : Datum} (h : ∀ e, Element e → ∀ xs ys, Ends xs → Ends ys →
    d.written.toList ++ xs = e.written.toList ++ ys → d = e ∧ xs = ys) :
    Legible writing Element d := by
  intro e he s s' hs hs' xs ys hx hy hwritten
  obtain rfl := Except.ok.inj hs
  obtain rfl := Except.ok.inj hs'
  exact h e he xs ys hx hy hwritten

section Containers

variable {items others : List Datum} {xs ys : List Char}

theorem not_ends_of_mem_written (h : ∀ d ∈ items, Element d) :
    ∀ s ∈ items.map written, ∀ tail, ¬ Ends (s.toList ++ tail) := by
  intro s hs tail
  obtain ⟨d, hd, rfl⟩ := List.mem_map.mp hs
  exact (h d hd).not_ends tail

theorem ends_tupleTail (d : Datum) (items : List Datum) (xs : List Char) :
    Ends (behind (items.map written) ++ (tupleClosing (d :: items) ++ xs)) := by
  cases items <;> exact ends_cons (by decide) _

/-- Behind the first element a tuple of one shows a comma and its end, every other a comma and a
blank. -/
theorem tupleTail_inj {d e : Datum} (hitems : ∀ d ∈ items, Legible writing Element d)
    (ho : ∀ d ∈ others, Element d)
    (h : behind (items.map written) ++ (tupleClosing (d :: items) ++ xs) =
      behind (others.map written) ++ (tupleClosing (e :: others) ++ ys)) :
    items = others ∧ xs = ys := by
  have hcloses : Closes [')'] := by decide
  match items, others with
  | [], [] => exact ⟨rfl, (List.cons.inj (List.cons.inj h).2).2⟩
  | [], e' :: others => simp [behind, tupleClosing] at h
  | d' :: items, [] => simp [behind, tupleClosing] at h
  | d' :: items, e' :: others =>
    exact behind_inj hitems ho (collect_writing _) (collect_writing _) hcloses h

theorem tuple_append_inj (hitems : ∀ d ∈ items, Legible writing Element d)
    (hi : ∀ d ∈ items, Element d) (ho : ∀ d ∈ others, Element d)
    (h : (commaSeparated (items.map written)).toList ++ (tupleClosing items ++ xs) =
      (commaSeparated (others.map written)).toList ++ (tupleClosing others ++ ys)) :
    items = others ∧ xs = ys := by
  match items, others with
  | [], [] => exact ⟨rfl, (List.cons.inj h).2⟩
  | [], e :: others =>
    have hends : Ends (')' :: xs) := ends_cons (by decide) xs
    have h : ')' :: xs = _ := h
    rw [h, List.map_cons, commaSeparated, intercalate_toList, List.append_assoc] at hends
    exact absurd hends ((ho e List.mem_cons_self).not_ends _)
  | d :: items, [] =>
    have hends : Ends (')' :: ys) := ends_cons (by decide) ys
    have h : _ = ')' :: ys := h
    rw [← h, List.map_cons, commaSeparated, intercalate_toList, List.append_assoc] at hends
    exact absurd hends ((hi d List.mem_cons_self).not_ends _)
  | d :: items, e :: others =>
    rw [List.map_cons, List.map_cons, commaSeparated, commaSeparated, intercalate_toList,
      intercalate_toList, List.append_assoc, List.append_assoc] at h
    obtain ⟨rfl, htail⟩ := hitems d List.mem_cons_self e (ho e List.mem_cons_self) _ _ rfl rfl
      _ _ (ends_tupleTail d items xs) (ends_tupleTail e others ys) h
    have hrest := tupleTail_inj (fun x hx => hitems x (List.mem_cons_of_mem d hx))
      (fun x hx => ho x (List.mem_cons_of_mem d hx)) htail
    exact hrest.imp_left (congrArg (d :: ·))

theorem frozenSet_append_inj (hitems : ∀ d ∈ items, Legible writing Element d)
    (hi : ∀ d ∈ items, Element d) (ho : ∀ d ∈ others, Element d)
    (h : (frozenSet items).written.toList ++ xs = (frozenSet others).written.toList ++ ys) :
    items = others ∧ xs = ys := by
  match items, others with
  | [], [] => exact ⟨rfl, List.append_cancel_left h⟩
  | [], e :: others =>
    rw [toList_frozenSet_cons] at h
    have h : "frozenset()".toList ++ xs = _ := h
    simp at h
  | d :: items, [] =>
    rw [toList_frozenSet_cons] at h
    have h : _ = "frozenset()".toList ++ ys := h
    simp at h
  | d :: items, e :: others =>
    rw [toList_frozenSet_cons, toList_frozenSet_cons] at h
    simp only [List.append_assoc, List.append_cancel_left_eq] at h
    exact intercalate_inj hitems ho (collect_writing _) (collect_writing _) (by decide)
      (not_ends_of_mem_written hi) (not_ends_of_mem_written ho) h

end Containers

/-- An element can be read back from its written form, whatever follows it. -/
theorem Element.legible {d : Datum} (h : Element d) : Legible writing Element d := by
  induction h with
  | bool b =>
    refine legible_writing fun e he xs ys _ _ h => ?_
    have hsort := (Element.bool b).typeName_eq he h
    cases he with
    | bool c =>
      cases b <;> cases c
      · exact ⟨rfl, List.append_cancel_left h⟩
      · cases (List.cons.inj h).1
      · cases (List.cons.inj h).1
      · exact ⟨rfl, List.append_cancel_left h⟩
    | _ => simp [typeName] at hsort
  | int n =>
    refine legible_writing fun e he xs ys hx hy h => ?_
    have hsort := (Element.int n).typeName_eq he h
    cases he with
    | int m =>
      have hword (k : Int) : StopFree (Int.repr k).toList :=
        .of_forall fun c hc => Number.isStop_of_isNumeral (Number.isNumeral_of_mem_repr hc)
      obtain ⟨hrepr, hrest⟩ := append_inj_of_ends (hword n) (hword m) hx hy h
      rw [Number.intRepr_inj (String.toList_inj.mp hrepr)]
      exact ⟨rfl, hrest⟩
    | _ => simp [typeName] at hsort
  | text s =>
    refine legible_writing fun e he xs ys _ _ h => ?_
    have hsort := (Element.text s).typeName_eq he h
    cases he with
    | text t => exact (quoted_append_inj h).imp_left (congrArg Datum.text)
    | _ => simp [typeName] at hsort
  | @tuple items hi ih =>
    refine legible_writing fun e he xs ys _ _ h => ?_
    have hsort := (Element.tuple hi).typeName_eq he h
    cases he with
    | @tuple others ho =>
      rw [toList_tuple, toList_tuple, List.cons_append, List.cons_append, List.append_assoc,
        List.append_assoc] at h
      exact (tuple_append_inj ih hi ho (List.cons.inj h).2).imp_left (congrArg Datum.tuple)
    | _ => simp [typeName] at hsort
  | @frozenSet items hi ih =>
    refine legible_writing fun e he xs ys _ _ h => ?_
    have hsort := (Element.frozenSet hi).typeName_eq he h
    cases he with
    | @frozenSet others ho =>
      exact (frozenSet_append_inj ih hi ho h).imp_left (congrArg Datum.frozenSet)
    | _ => simp [typeName] at hsort

theorem Element.written_inj {d e : Datum} (hd : Element d) (he : Element e)
    (h : d.written = e.written) : d = e :=
  hd.legible.eq_of_text_eq he (congrArg Except.ok h) rfl

end Datum

end BuildConstants
