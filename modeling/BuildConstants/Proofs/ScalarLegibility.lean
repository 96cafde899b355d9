import BuildConstants.Proofs.DialectPrinting
import BuildConstants.Proofs.Legibility
import BuildConstants.Proofs.LiteralReading

/-!
# Legible scalars

Booleans and integers are words without stops, and different values have different words; for the
least long of Kotlin this takes the blank in its spelling. Quoted scalars end at their last quote
and are read back by unescaping.
-/

namespace BuildConstants

open Literal Outcome Text

/-! Numerals -/

namespace Number

def isNumeral (c : Char) : Bool :=
  c == '-' || c.isDigit

theorem isDigit_of_mem_repr {n : Nat} {c : Char} (h : c ∈ (Nat.repr n).toList) :
    c.isDigit = true := by
  rw [Nat.toList_repr] at h
  exact Nat.isDigit_of_mem_toDigits (by decide) (by decide) h

theorem natRepr_inj {n m : Nat} (h : Nat.repr n = Nat.repr m) : n = m := by
  have hdigits : Nat.toDigits 10 n = Nat.toDigits 10 m := by
    rw [← Nat.toList_repr, ← Nat.toList_repr, h]
  rw [← Nat.ofDigitChars_ten_toDigits (n := n), hdigits, Nat.ofDigitChars_ten_toDigits]

theorem minus_ne_natRepr (n m : Nat) : "-" ++ Nat.repr n ≠ Nat.repr m := by
  intro h
  have hminus : '-' ∈ (Nat.repr m).toList := by
    rw [← h, String.toList_append]
    exact List.mem_append_left _ (by decide)
  have hdigit := isDigit_of_mem_repr hminus
  revert hdigit
  decide

theorem intRepr_inj {n m : Int} (h : Int.repr n = Int.repr m) : n = m := by
  cases n with
  | ofNat n =>
    cases m with
    | ofNat m => rw [natRepr_inj (n := n) (m := m) h]
    | negSucc m => exact absurd h.symm (minus_ne_natRepr _ _)
  | negSucc n =>
    cases m with
    | ofNat m => exact absurd h (minus_ne_natRepr _ _)
    | negSucc m =>
      have hrepr : Nat.repr (n + 1) = Nat.repr (m + 1) := by
        have hlist := congrArg String.toList h
        simp only [Int.repr, String.toList_append] at hlist
        exact String.toList_inj.mp (List.append_cancel_left hlist)
      have hn := natRepr_inj hrepr
      rw [Nat.succ.inj hn]

theorem isNumeral_of_mem_repr {n : Int} {c : Char} (h : c ∈ (Int.repr n).toList) :
    isNumeral c = true := by
  cases n with
  | ofNat n => simp [isNumeral, isDigit_of_mem_repr (n := n) h]
  | negSucc n =>
    have h : c ∈ ("-" ++ Nat.repr (n + 1)).toList := h
    rw [String.toList_append, List.mem_append] at h
    rcases h with h | h
    · obtain rfl : c = '-' := by simpa using h
      rfl
    · simp [isNumeral, isDigit_of_mem_repr h]

theorem intRepr_toList_ne_nil (n : Int) : (Int.repr n).toList ≠ [] := by
  cases n with
  | ofNat n =>
    show (Nat.repr n).toList ≠ []
    rw [Nat.toList_repr]
    exact Nat.toDigits_ne_nil
  | negSucc n =>
    show ("-" ++ Nat.repr (n + 1)).toList ≠ []
    simp

theorem isStop_of_isNumeral {c : Char} (h : isNumeral c = true) : isStop c = false := by
  rw [isNumeral, Bool.or_eq_true] at h
  simp only [isStop, Bool.or_eq_false_iff, beq_eq_false_iff_ne]
  refine ⟨⟨?_, ?_⟩, ?_⟩ <;> rintro rfl <;> revert h <;> decide

end Number

namespace Literal

open Number

/-! Words and quoted texts -/

theorem legible_of_word {style : Style} {f : Form} {k : ScalarKind} {sort : Datum → Prop}
    (word : Datum → String) (hspell : ∀ d, sort d → spell style f.hole ⟨k, d⟩ = .ok (word d))
    (hword : ∀ d, sort d → StopFree (word d).toList) (hafter : StopFree f.after.toList)
    (hinj : ∀ d e, sort d → sort e → word d = word e → d = e) {d : Datum} (hd : sort d) :
    Legible (fun e => f.write style ⟨k, e⟩) sort d := by
  have hwrite {e : Datum} {s : String} (he : sort e) (hs : f.write style ⟨k, e⟩ = .ok s) :
      s = f.before ++ word e ++ f.after := by
    rw [Form.write, hspell e he] at hs
    exact (Except.ok.inj hs).symm
  intro e he s s' hs hs' xs ys hx hy h
  rw [hwrite hd hs, hwrite he hs'] at h
  simp only [String.toList_append, List.append_assoc] at h
  have h := List.append_cancel_left h
  rw [← List.append_assoc, ← List.append_assoc] at h
  obtain ⟨hwords, hrest⟩ := append_inj_of_ends ((hword d hd).append hafter)
    ((hword e he).append hafter) hx hy h
  have heq := String.toList_inj.mp (List.append_cancel_right hwords)
  exact ⟨hinj d e hd he heq, hrest⟩

theorem Fresh.append_text {s : String} (h : Fresh s.toList) (t : String) :
    Fresh (s ++ t).toList := by
  rw [String.toList_append]
  exact h.append _

theorem fresh_new : Fresh "new ".toList :=
  .new _

theorem fresh_of_word {f : Form} {word : String}
    (hbefore : f.before = "" ∨ Fresh f.before.toList) (hword : Fresh word.toList) :
    Fresh (f.before ++ word ++ f.after).toList := by
  rcases hbefore with hempty | hfresh
  · rw [hempty, String.empty_append]
    exact hword.append_text _
  · exact (hfresh.append_text _).append_text _

theorem enclose_append_inj {q : Char} (hq : IsQuote q) {dollar : Bool} {cs cs' xs ys : List Char}
    (h : (enclose q dollar cs).toList ++ xs = (enclose q dollar cs').toList ++ ys) :
    cs = cs' ∧ xs = ys := by
  have hbody : escape (some q) dollar cs ++ q :: xs = escape (some q) dollar cs' ++ q :: ys := by
    simpa [enclose] using h
  have hread := congrArg (untilQuote q) hbody
  rw [Kotlin.untilQuote_escape hq, Kotlin.untilQuote_escape hq, Option.some.injEq,
    Prod.mk.injEq] at hread
  have htext := congrArg Kotlin.unescape hread.1
  rw [Kotlin.unescape_escape hq, Kotlin.unescape_escape hq] at htext
  exact ⟨Option.some.inj htext, hread.2⟩

theorem fresh_enclose {q : Char} (hq : IsQuote q) (dollar : Bool) (cs : List Char) :
    Fresh (enclose q dollar cs).toList := by
  rw [enclose, String.toList_ofList]
  rcases hq with rfl | rfl
  · exact .head (by decide) (by decide) _
  · exact .head (by decide) (by decide) _

theorem legible_of_quoted {style : Style} {f : Form} {k : ScalarKind} {sort : Datum → Prop}
    {q : Char} (hq : IsQuote q) (dollar : Bool) (content : Datum → List Char)
    (hwrite : ∀ d, sort d → f.write style ⟨k, d⟩ = .ok (enclose q dollar (content d)))
    (hinj : ∀ d e, sort d → sort e → content d = content e → d = e) {d : Datum} (hd : sort d) :
    Legible (fun e => f.write style ⟨k, e⟩) sort d := by
  intro e he s s' hs hs' xs ys hx hy h
  obtain rfl := Except.ok.inj ((hwrite d hd).symm.trans hs)
  obtain rfl := Except.ok.inj ((hwrite e he).symm.trans hs')
  obtain ⟨hcontent, hrest⟩ := enclose_append_inj hq h
  exact ⟨hinj d e hd he hcontent, hrest⟩

end Literal

namespace Language

open Number

/-- The word of an integer. Only the least long of Kotlin is not spelled as a numeral. -/
def integerWord (l : Language) (k : ScalarKind) (n : Int) : String :=
  match l, k with
  | kotlin, .long => if n = Kotlin.longMin then Kotlin.longMinText else Int.repr n
  | _, _ => Int.repr n

theorem integerWord_eq (l : Language) (k : ScalarKind) (n : Int) :
    l.integerWord k n = Int.repr n ∨
      n = Kotlin.longMin ∧ ∀ m, l.integerWord k m =
        if m = Kotlin.longMin then Kotlin.longMinText else Int.repr m := by
  by_cases h : l = kotlin ∧ k = .long
  · obtain ⟨rfl, rfl⟩ := h
    by_cases hn : n = Kotlin.longMin
    · exact .inr ⟨hn, fun m => rfl⟩
    · exact .inl (if_neg hn)
  · refine .inl ?_
    unfold integerWord
    split
    · exact absurd ⟨rfl, rfl⟩ h
    · rfl

theorem longMinText_ne_repr (n : Int) : Kotlin.longMinText ≠ Int.repr n := by
  intro h
  -- The least long is spelled as a difference, with blanks around the minus sign.
  have hblank : ' ' ∈ (Int.repr n).toList := by
    rw [← h]
    decide
  have hnumeral := isNumeral_of_mem_repr hblank
  revert hnumeral
  decide

theorem integerWord_inj {l : Language} {k : ScalarKind} {n m : Int}
    (h : l.integerWord k n = l.integerWord k m) : n = m := by
  rcases l.integerWord_eq k n with hn | ⟨rfl, hword⟩
  · rcases l.integerWord_eq k m with hm | ⟨rfl, hword⟩
    · exact intRepr_inj (hn.symm.trans (h.trans hm))
    · rw [hn, hword, if_pos rfl] at h
      exact absurd h.symm (longMinText_ne_repr n)
  · by_cases hm : m = Kotlin.longMin
    · exact hm.symm
    · rw [hword, hword, if_pos rfl, if_neg hm] at h
      exact absurd h (longMinText_ne_repr m)

theorem integerWord_stopFree (l : Language) (k : ScalarKind) (n : Int) :
    StopFree (l.integerWord k n).toList := by
  rcases l.integerWord_eq k n with hn | ⟨rfl, hword⟩
  · rw [hn]
    exact .of_forall fun c hc => isStop_of_isNumeral (isNumeral_of_mem_repr hc)
  · rw [hword, if_pos rfl]
    decide

theorem integerWord_fresh (l : Language) (k : ScalarKind) (n : Int) :
    Fresh (l.integerWord k n).toList := by
  rcases l.integerWord_eq k n with hn | ⟨rfl, hword⟩
  · rw [hn]
    obtain ⟨c, cs, hcons⟩ := List.exists_cons_of_ne_nil (intRepr_toList_ne_nil n)
    have hnumeral : isNumeral c = true := isNumeral_of_mem_repr (n := n) (by simp [hcons])
    rw [hcons]
    refine .head (isStop_of_isNumeral hnumeral) ?_ cs
    rintro rfl
    revert hnumeral
    decide
  · rw [hword, if_pos rfl]
    exact .head (by decide) (by decide) _

theorem spell_integer (l : Language) {k : ScalarKind} {n : Int} (h : k.inRange n = true) :
    spell l.dialect.style (l.form k).hole ⟨k, .int n⟩ = .ok (l.integerWord k n) := by
  have hintegral := k.isIntegral_of_inRange h
  have hplain : plain ⟨k, .int n⟩ = .ok (Int.repr n) := by
    cases k <;> simp_all [plain, plainInteger, ScalarKind.isIntegral, ScalarKind.width?]
  cases l with
  | java =>
    cases k with
    | byte | short | int | long => exact hplain
    | _ => cases hintegral
  | kotlin =>
    have hword : Kotlin.plain ⟨k, .int n⟩ = .ok (integerWord kotlin k n) := by
      by_cases hk : k = .long
      · subst hk
        by_cases hn : n = Kotlin.longMin
        · subst hn
          rfl
        · have hne : ¬ Kotlin.longMin = n := fun h => hn h.symm
          simp [Kotlin.plain, Datum.equalsInt, integerWord, hn, hne, hplain]
      · have hrepr : integerWord kotlin k n = Int.repr n := by
          cases k <;> first | rfl | exact absurd rfl hk
        simp [Kotlin.plain, hk, hrepr, hplain]
    cases k with
    | byte | short | int | long => exact hword
    | _ => cases hintegral

/-! Both languages -/

theorem write_boolean (l : Language) (b : Bool) :
    (l.form .boolean).write l.dialect.style ⟨.boolean, .bool b⟩ =
      .ok (if b then "true" else "false") := by
  cases l <;> cases b <;> rfl

theorem write_string (l : Language) (s : String) :
    (l.form .string).write l.dialect.style ⟨.string, .text s⟩ =
      .ok (enclose doubleQuote (l == kotlin) s.toList) := by
  cases l with
  | kotlin =>
    show Except.ok ("" ++ enclose doubleQuote true s.toList ++ "") = _
    rw [String.empty_append, String.append_empty]
    rfl
  | java =>
    show Except.ok ("" ++ enclose doubleQuote false s.toList ++ "") = _
    rw [String.empty_append, String.append_empty]
    rfl

theorem write_char (l : Language) {c : Char} (h : codePoint c ≤ 0xffff) :
    (l.form .char).write l.dialect.style ⟨.char, .text (String.singleton c)⟩ =
      .ok (enclose singleQuote false [c]) := by
  have hchar : charOf (.text (String.singleton c)) = .ok c := by
    simp [charOf, Datum.display, h]
  have hspell : spell l.dialect.style .char ⟨.char, .text (String.singleton c)⟩ =
      .ok (enclose singleQuote false [c]) := by
    rw [spell, hchar]
    cases l <;> rfl
  have hform : l.form .char = ⟨"", .char, ""⟩ := by cases l <;> rfl
  simp [hform, Form.write, hspell]

theorem boolean_of_legal {d : Datum} (h : Legal .boolean d) : ∃ b, d = .bool b := by
  cases h with
  | boolean b => exact ⟨b, rfl⟩
  | integer hn => cases ScalarKind.isIntegral_of_inRange hn

theorem char_of_legal {d : Datum} (h : Legal .char d) :
    ∃ c, d = .text (String.singleton c) ∧ codePoint c ≤ 0xffff := by
  cases h with
  | char hc => exact ⟨_, rfl, hc⟩
  | integer hn => cases ScalarKind.isIntegral_of_inRange hn

theorem string_of_legal {d : Datum} (h : Legal .string d) : ∃ s, d = .text s := by
  cases h with
  | string s => exact ⟨s, rfl⟩
  | integer hn => cases ScalarKind.isIntegral_of_inRange hn

theorem integer_of_legal {k : ScalarKind} (hk : k.isIntegral = true) {d : Datum}
    (h : Legal k d) : ∃ n, d = .int n ∧ k.inRange n = true := by
  cases h with
  | boolean b => cases hk
  | integer hn => exact ⟨_, rfl, hn⟩
  | char hc => cases hk
  | string s => cases hk

/-- The word of a datum that is written without quotes. -/
def word (l : Language) (k : ScalarKind) : Datum → String
  | .bool b => if b then "true" else "false"
  | .int n => l.integerWord k n
  | _ => ""

/-- The characters of a datum that is written between quotes. -/
def quotedText : Datum → List Char
  | .text s => s.toList
  | _ => []

theorem legible_integer (l : Language) {k : ScalarKind} (hk : k.isIntegral = true) {d : Datum}
    (hd : Legal k d) :
    Legible (fun e => (l.form k).write l.dialect.style ⟨k, e⟩) (Legal k) d := by
  refine legible_of_word (l.word k) ?_ ?_ ?_ ?_ hd
  · intro e he
    obtain ⟨n, rfl, hn⟩ := integer_of_legal hk he
    exact l.spell_integer hn
  · intro e he
    obtain ⟨n, rfl, hn⟩ := integer_of_legal hk he
    exact l.integerWord_stopFree k n
  · cases l <;> cases k <;> decide
  · intro e e' he he' heq
    obtain ⟨n, rfl, hn⟩ := integer_of_legal hk he
    obtain ⟨m, rfl, hm⟩ := integer_of_legal hk he'
    have heq : l.integerWord k n = l.integerWord k m := heq
    rw [integerWord_inj heq]

theorem legible_boolean (l : Language) {d : Datum} (hd : Legal .boolean d) :
    Legible (fun e => (l.form .boolean).write l.dialect.style ⟨.boolean, e⟩) (Legal .boolean) d := by
  refine legible_of_word (l.word .boolean) ?_ ?_ ?_ ?_ hd
  · intro e he
    obtain ⟨b, rfl⟩ := boolean_of_legal he
    cases l <;> cases b <;> rfl
  · intro e he
    obtain ⟨b, rfl⟩ := boolean_of_legal he
    show StopFree (if b then "true" else "false").toList
    cases b <;> decide
  · cases l <;> decide
  · intro e e' he he' heq
    obtain ⟨b, rfl⟩ := boolean_of_legal he
    obtain ⟨b', rfl⟩ := boolean_of_legal he'
    have heq : (if b then "true" else "false") = if b' then "true" else "false" := heq
    have hb : b = b' := by
      revert heq
      cases b <;> cases b' <;> decide
    rw [hb]

theorem legible_char (l : Language) {d : Datum} (hd : Legal .char d) :
    Legible (fun e => (l.form .char).write l.dialect.style ⟨.char, e⟩) (Legal .char) d := by
  refine legible_of_quoted (.inr rfl) false quotedText ?_ ?_ hd
  · intro e he
    obtain ⟨c, rfl, hc⟩ := char_of_legal he
    rw [l.write_char hc, quotedText, String.toList_singleton]
  · intro e e' he he' heq
    obtain ⟨c, rfl, hc⟩ := char_of_legal he
    obtain ⟨c', rfl, hc'⟩ := char_of_legal he'
    rw [String.toList_inj.mp heq]

theorem legible_string (l : Language) {d : Datum} (hd : Legal .string d) :
    Legible (fun e => (l.form .string).write l.dialect.style ⟨.string, e⟩) (Legal .string) d := by
  refine legible_of_quoted (.inl rfl) (l == kotlin) quotedText ?_ ?_ hd
  · intro e he
    obtain ⟨s, rfl⟩ := string_of_legal he
    exact l.write_string s
  · intro e e' he he' heq
    obtain ⟨s, rfl⟩ := string_of_legal he
    obtain ⟨s', rfl⟩ := string_of_legal he'
    rw [String.toList_inj.mp heq]

theorem fresh_form_before (l : Language) (k : ScalarKind) :
    (l.form k).before = "" ∨ Fresh (l.form k).before.toList := by
  cases l with
  | kotlin => cases k <;> exact .inl rfl
  | java =>
    cases k with
    | byte | short => exact .inr (.head (by decide) (by decide) _)
    | _ => exact .inl rfl

theorem write_fresh (l : Language) {k : ScalarKind} {d : Datum} (hd : Legal k d) :
    ∃ s, (l.form k).write l.dialect.style ⟨k, d⟩ = .ok s ∧ Fresh s.toList := by
  cases hd with
  | boolean b =>
    refine ⟨_, l.write_boolean b, ?_⟩
    cases b
    · exact .head (by decide) (by decide) _
    · exact .head (by decide) (by decide) _
  | @integer _ n hn =>
    refine ⟨(l.form k).before ++ l.integerWord k n ++ (l.form k).after, ?_,
      fresh_of_word (l.fresh_form_before k) (l.integerWord_fresh k n)⟩
    rw [Form.write, l.spell_integer hn]
    rfl
  | char hc => exact ⟨_, l.write_char hc, fresh_enclose (.inr rfl) _ _⟩
  | string s => exact ⟨_, l.write_string s, fresh_enclose (.inl rfl) _ _⟩

theorem legible_legal (l : Language) {k : ScalarKind} {d : Datum} (hd : Legal k d) :
    Legible (fun e => (l.form k).write l.dialect.style ⟨k, e⟩) (Legal k) d := by
  cases k with
  | boolean => exact l.legible_boolean hd
  | char => exact l.legible_char hd
  | string => exact l.legible_string hd
  | byte | short | int | long => exact l.legible_integer rfl hd
  | float | double | other =>
    cases hd with
    | integer hn => cases ScalarKind.isIntegral_of_inRange hn

theorem style_distinct (l : Language) : l.dialect.style.Distinct l.form where
  null := by cases l <;> rfl
  separator := by cases l <;> rfl
  writes := l.write_fresh
  legible := l.legible_legal
  primitiveArray k := by
    cases l with
    | kotlin =>
      have hname : Fresh k.name.toList := by
        cases k <;> exact .head (by decide) (by decide) _
      exact ⟨hname.append_text _, show Closes ")".toList by decide⟩
    | java => exact ⟨(fresh_new.append_text _).append_text _, show Closes "\x7d".toList by decide⟩
  genericArray := by
    intro e b h
    cases l with
    | kotlin =>
      obtain rfl := Except.ok.inj h
      exact ⟨.head (by decide) (by decide) _, show Closes ")".toList by decide⟩
    | java =>
      cases e with
      | none => cases h
      | some e =>
        obtain ⟨name, -, h⟩ := bind_eq_ok_iff.mp h
        obtain rfl := Except.ok.inj h
        exact ⟨(fresh_new.append_text _).append_text _, show Closes "\x7d".toList by decide⟩
  list := by
    cases l with
    | kotlin | java =>
      exact ⟨.head (by decide) (by decide) _, show Closes ")".toList by decide⟩
  set := by
    cases l with
    | kotlin => exact ⟨.head (by decide) (by decide) _, show Closes ")".toList by decide⟩
    | java => exact ⟨.new _, show Closes "))".toList by decide⟩

end Language

end BuildConstants
