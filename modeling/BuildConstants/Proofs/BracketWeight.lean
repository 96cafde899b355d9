import BuildConstants.Proofs.HoleCounts
import BuildConstants.Proofs.NumberCharacters

/-!
# Opening brackets of a literal

The weight of a text counts its opening brackets. However an argument is spelled, it weighs what
its display form weighs: escapes and numbers have no brackets. So the weight of a filled template
is that of its letters and that of the arguments, no matter which hole takes which argument.
-/

namespace BuildConstants

open Literal Outcome Number Text

namespace Literal

/-- A brace weighs more than a round bracket, so that the creation of an array outweighs a cast. -/
def bracketWeight (c : Char) : Nat :=
  if c = '(' then 1 else if c = '\x7b' then 2 else 0

def weight (cs : List Char) : Nat :=
  cs.foldr (fun c n => bracketWeight c + n) 0

@[simp] theorem weight_nil : weight [] = 0 := rfl

@[simp] theorem weight_cons (c : Char) (cs : List Char) :
    weight (c :: cs) = bracketWeight c + weight cs := rfl

@[simp] theorem weight_append (cs ds : List Char) : weight (cs ++ ds) = weight cs + weight ds := by
  induction cs with
  | nil => simp
  | cons c cs ih => simp [ih, Nat.add_assoc]

theorem bracketWeight_of_not_isOpening {c : Char} (h : isOpening c = false) :
    bracketWeight c = 0 := by
  simp only [isOpening, Bool.or_eq_false_iff, beq_eq_false_iff_ne] at h
  rw [bracketWeight, if_neg h.1, if_neg h.2]

theorem weight_eq_zero {cs : List Char} (h : ∀ c ∈ cs, isOpening c = false) : weight cs = 0 := by
  induction cs with
  | nil => rfl
  | cons c cs ih =>
    obtain ⟨hc, hcs⟩ := List.forall_mem_cons.mp h
    rw [weight_cons, bracketWeight_of_not_isOpening hc, ih hcs]

theorem weight_of_inNumber {cs : List Char} (h : ∀ c ∈ cs, inNumber c = true) : weight cs = 0 := by
  apply weight_eq_zero
  intro c hc
  rw [Bool.eq_false_iff]
  intro hopening
  exact Bool.noConfusion ((not_inNumber_of_isOpening hopening).symm.trans (h c hc))

/-! Escapes -/

theorem not_isOpening_hexDigit : ∀ n < 16, isOpening (hexDigit n) = false := by
  decide

theorem not_isOpening_of_mem_hexDigits {w n : Nat} {c : Char} (h : c ∈ hexDigits w n) :
    isOpening c = false := by
  obtain ⟨d, hd, rfl⟩ := mem_hexDigits h
  exact not_isOpening_hexDigit d hd

theorem not_isOpening_of_mem_escape {mark : Char} (hmark : isOpening mark = false) {w n : Nat} :
    ∀ c ∈ '\\' :: mark :: hexDigits w n, isOpening c = false := by
  intro c hc
  rw [List.mem_cons, List.mem_cons] at hc
  obtain rfl | rfl | hc := hc
  · rfl
  · exact hmark
  · exact not_isOpening_of_mem_hexDigits hc

theorem not_isOpening_of_mem_pair {e : Char} (he : isOpening e = false) :
    ∀ c ∈ ['\\', e], isOpening c = false :=
  List.forall_mem_cons.mpr ⟨rfl, List.forall_mem_singleton.mpr he⟩

theorem weight_escapeChar {q : Char} (hq : IsQuote q) (dollar : Bool) (c : Char) :
    weight (escapeChar (some q) dollar c) = bracketWeight c := by
  cases hc : isOpening c with
  | true =>
    obtain rfl | rfl := isOpening_cases hc <;> obtain rfl | rfl := hq <;> cases dollar <;> rfl
  | false =>
    rw [bracketWeight_of_not_isOpening hc]
    apply weight_eq_zero
    have hescaped := escapeChar_escaped hq dollar c
    generalize escapeChar (some q) dollar c = cs at hescaped
    cases hescaped with
    | @letter e he =>
      have hletter : isOpening e = false := by
        rw [Bool.eq_false_iff]
        intro hopening
        obtain rfl | rfl := isOpening_cases hopening <;> cases he
      exact not_isOpening_of_mem_pair hletter
    | dollar => exact not_isOpening_of_mem_pair rfl
    | unicode => exact not_isOpening_of_mem_escape rfl
    | self => exact List.forall_mem_singleton.mpr hc

theorem weight_escape {q : Char} (hq : IsQuote q) (dollar : Bool) (cs : List Char) :
    weight (escape (some q) dollar cs) = weight cs := by
  induction cs with
  | nil => rfl
  | cons c cs ih => rw [escape_cons, weight_append, weight_escapeChar hq, weight_cons, ih]

theorem weight_enclose {q : Char} (hq : IsQuote q) (dollar : Bool) (cs : List Char) :
    weight (enclose q dollar cs).toList = weight cs := by
  have hquote : bracketWeight q = 0 := by obtain rfl | rfl := hq <;> rfl
  rw [enclose, String.toList_ofList, weight_cons, weight_append, weight_escape hq, weight_cons,
    hquote, weight_nil]
  omega

/-! Arguments -/

/-- What an argument adds to a text. -/
def argumentWeight (s : Scalar) : Nat :=
  weight s.value.display.toList

theorem weight_text (x : Binary64) : weight x.text.toList = 0 := by
  cases hx : x.isFinite with
  | true => exact weight_of_inNumber fun _ => inNumber_of_mem_text hx
  | false =>
    cases x with
    | nan => rfl
    | infinite s => cases s <;> rfl
    | finite s units => cases hx

theorem weight_boolText (b : Bool) : weight (Datum.boolText b).toList = 0 := by
  cases b <;> decide

theorem weight_repr (n : Int) : weight (Int.repr n).toList = 0 :=
  weight_of_inNumber fun _ => inNumber_of_mem_intRepr

theorem not_isOpening_of_mem_escapeUnprintable (n : Nat) :
    ∀ c ∈ escapeUnprintable n, isOpening c = false := by
  unfold escapeUnprintable
  split
  · exact not_isOpening_of_mem_escape rfl
  · split
    · exact not_isOpening_of_mem_escape rfl
    · exact not_isOpening_of_mem_escape rfl

theorem not_isOpening_of_mem_quoteChar {q c : Char} (hc : isOpening c = false) :
    ∀ d ∈ Text.quoteChar q c, isOpening d = false := by
  unfold Text.quoteChar
  split
  · exact not_isOpening_of_mem_pair hc
  · split
    · exact not_isOpening_of_mem_pair rfl
    · split
      · exact not_isOpening_of_mem_pair rfl
      · split
        · exact not_isOpening_of_mem_pair rfl
        · split
          · exact List.forall_mem_singleton.mpr hc
          · exact not_isOpening_of_mem_escapeUnprintable _

theorem not_isOpening_ofNat {n : Nat} (h : 127 ≤ n) (hn : n < 256) :
    isOpening (Char.ofNat n) = false := by
  have hvalid : n.isValidChar := .inl (by omega)
  have hcode : (Char.ofNat n).toNat = n := by
    rw [Char.ofNat, dif_pos hvalid]
    rfl
  rw [Bool.eq_false_iff]
  intro hopening
  obtain hc | hc := isOpening_cases hopening
  · have hround : n = 40 := hcode.symm.trans (congrArg Char.toNat hc)
    omega
  · have hcurly : n = 123 := hcode.symm.trans (congrArg Char.toNat hc)
    omega

/-- Octets whose characters have no opening bracket are written without one. -/
theorem weight_quotedOctets {octets : List UInt8}
    (h : ∀ c ∈ octetChars octets, isOpening c = false) :
    weight (quotedOctets octets).toList = 0 := by
  have hchar : ∀ o ∈ octets, isOpening (Char.ofNat o.toNat) = false := by
    intro o ho
    have hform := h _ (List.mem_map_of_mem ho)
    split at hform
    · exact hform
    · rename_i hlarge
      exact not_isOpening_ofNat (by omega) o.toNat_lt
  have hquote : isOpening (enclosingQuote (octets.map fun o => Char.ofNat o.toNat)) = false := by
    obtain hq | hq := enclosingQuote_isQuote (octets.map fun o => Char.ofNat o.toNat) <;>
      rw [hq] <;> rfl
  apply weight_eq_zero
  unfold quotedOctets
  dsimp only
  rw [String.toList_ofList]
  simp only [List.forall_mem_cons, List.forall_mem_append, List.mem_flatMap, List.mem_map]
  refine ⟨rfl, hquote, ?_, hquote, nofun⟩
  rintro d ⟨c, ⟨o, ho, rfl⟩, hd⟩
  split at hd
  · exact not_isOpening_of_mem_quoteChar (hchar o ho) d hd
  · exact not_isOpening_of_mem_escapeUnprintable _ d hd

theorem not_isOpening_of_isWord {c : Char} (h : isWord c = true) : isOpening c = false := by
  rw [Bool.eq_false_iff]
  intro hopening
  rcases (Bool.or_eq_true _ _).mp hopening with hc | hc
  all_goals
    obtain rfl := beq_iff_eq.mp hc
    revert h
    decide

theorem weight_label (m : Member) : weight m.label.toList = 0 := by
  have hword : ∀ s ∈ m.enumeration.name :: m.enumeration.entries.map (·.1),
      weight s.toList = 0 := by
    intro s hs
    exact weight_eq_zero fun c hc =>
      not_isOpening_of_isWord (List.all_eq_true.mp (m.enumeration.words s hs) c hc)
  have hname := hword _ List.mem_cons_self
  have hcapital := hword m.capitalName (List.mem_cons_of_mem _ (List.mem_map_of_mem m.mem_entries))
  simp [Member.label, hname, hcapital, bracketWeight]

/-- What is converted to a number is displayed without opening brackets. -/
theorem weight_of_toDouble {d : Datum} {x : Binary64} (h : d.toDouble = .ok x) :
    weight d.display.toList = 0 := by
  have hread {cs : List Char} {e : NumberError}
      (hcs : (readDouble? cs).elim (Except.error e) Except.ok = .ok x) :
      ∀ c ∈ cs, isOpening c = false := by
    intro c hmem
    cases hr : readDouble? cs with
    | none =>
      rw [hr] at hcs
      cases hcs
    | some y =>
      rw [Bool.eq_false_iff]
      exact fun hopening => not_mem_of_readDouble hopening hr hmem
  cases d with
  | float y => exact weight_text y
  | bool b => exact weight_boolText b
  | int n => exact weight_repr n
  | text s => exact weight_eq_zero (hread h)
  | member m => exact weight_label m
  | bytes octets => exact weight_quotedOctets (hread h)
  | _ => cases h

theorem weight_of_plain {s : Scalar} {text : String} (h : Literal.plain s = .ok text) :
    weight text.toList = argumentWeight s := by
  obtain ⟨k, d⟩ := s
  have hinteger : ∀ k, plainInteger k d = .ok text →
      weight text.toList = weight d.display.toList := by
    intro k h
    cases d with
    | int n =>
      rw [weight_of_inNumber fun _ => inNumber_of_plainInteger h]
      exact (weight_repr n).symm
    | _ => cases h
  have hfloating : ∀ k, plainFloating k d = .ok text →
      weight text.toList = weight d.display.toList := by
    intro k h
    rw [weight_of_inNumber fun _ => inNumber_of_plainFloating h]
    unfold plainFloating at h
    split at h
    · cases h
    · rename_i x hx
      exact (weight_of_toDouble hx).symm
  cases k with
  | boolean =>
    cases d with
    | bool b =>
      obtain rfl := Except.ok.inj h
      have hword : weight (if b then "true" else "false").toList = 0 := by cases b <;> decide
      exact hword.trans (weight_boolText b).symm
    | _ => cases h
  | byte | short | int | long => exact hinteger _ h
  | float | double => exact hfloating _ h
  | char | string | other =>
    obtain rfl := Except.ok.inj h
    rfl

/-- A value that equals the least long is a number, however it is spelled. -/
theorem argumentWeight_of_equalsInt {s : Scalar} {n : Int} (h : s.value.equalsInt n = true) :
    argumentWeight s = 0 := by
  obtain ⟨k, d⟩ := s
  change weight d.display.toList = 0
  cases d with
  | bool b => exact weight_boolText b
  | int m => exact weight_repr m
  | float x => exact weight_text x
  | _ => cases h

theorem weight_of_spell (l : Language) {hole : Hole} {s : Scalar} {text : String}
    (h : spell l.dialect.style hole s = .ok text) : weight text.toList = argumentWeight s := by
  cases hole with
  | plain =>
    cases l with
    | kotlin =>
      change Kotlin.plain s = .ok text at h
      unfold Kotlin.plain at h
      split at h
      · rename_i hleast
        obtain rfl := Except.ok.inj h
        rw [Bool.and_eq_true] at hleast
        rw [argumentWeight_of_equalsInt hleast.2]
        rfl
      · exact weight_of_plain h
    | java => exact weight_of_plain h
  | string =>
    obtain rfl := Except.ok.inj h
    cases l with
    | kotlin => exact weight_enclose (.inl rfl) true _
    | java => exact weight_enclose (.inl rfl) false _
  | char =>
    obtain ⟨c, hc, h⟩ := bind_eq_ok_iff.mp h
    obtain rfl := Except.ok.inj h
    have hdisplay : s.value.display.toList = [c] := by
      unfold charOf at hc
      split at hc
      · rename_i c' hc'
        split at hc
        · obtain rfl := Except.ok.inj hc
          exact hc'
        · cases hc
      · cases hc
    rw [argumentWeight, hdisplay]
    cases l with
    | kotlin => exact weight_enclose (.inr rfl) false [c]
    | java => exact weight_enclose (.inr rfl) false [c]

/-! Templates -/

def argumentsWeight (args : List Scalar) : Nat :=
  args.foldr (fun s n => argumentWeight s + n) 0

@[simp] theorem argumentsWeight_nil : argumentsWeight [] = 0 := rfl

@[simp] theorem argumentsWeight_cons (s : Scalar) (args : List Scalar) :
    argumentsWeight (s :: args) = argumentWeight s + argumentsWeight args := rfl

@[simp] theorem argumentsWeight_append (args args' : List Scalar) :
    argumentsWeight (args ++ args') = argumentsWeight args + argumentsWeight args' := by
  induction args with
  | nil => simp
  | cons s args ih => simp [ih, Nat.add_assoc]

/-- What a filled template weighs does not depend on where its arguments go. -/
theorem weight_of_fill {l : Language} {template : String} {ps : List Piece} :
    ∀ {consumed : Nat} {args : List Scalar} {cs : List Char},
      fill l.dialect.style template consumed ps args = .ok cs →
        weight cs = weight (ps.filterMap Piece.letter?) + argumentsWeight args := by
  induction ps with
  | nil =>
    intro consumed args cs h
    cases args with
    | nil =>
      obtain rfl := Except.ok.inj h
      rfl
    | cons a args => cases h
  | cons p ps ih =>
    intro consumed args cs h
    cases p with
    | letter c =>
      obtain ⟨rest, hrest, h⟩ := bind_eq_ok_iff.mp h
      obtain rfl := Except.ok.inj h
      rw [weight_cons, ih hrest, List.filterMap_cons]
      simp only [Piece.letter?, weight_cons]
      omega
    | hole k =>
      cases args with
      | nil => cases h
      | cons a args =>
        obtain ⟨text, htext, h⟩ := bind_eq_ok_iff.mp h
        obtain ⟨rest, hrest, h⟩ := bind_eq_ok_iff.mp h
        obtain rfl := Except.ok.inj h
        rw [weight_append, ih hrest, weight_of_spell l htext]
        show _ = weight (ps.filterMap Piece.letter?) + argumentsWeight (a :: args)
        rw [argumentsWeight_cons]
        omega

/-- What the letters of a template weigh. -/
def textWeight (text : String) : Nat :=
  weight (reading text)

theorem weight_of_render {l : Language} {template : String} {args : List Scalar} {text : String}
    (h : render l.dialect.style template args = .ok text) :
    weight text.toList = textWeight template + argumentsWeight args := by
  obtain ⟨cs, hcs, h⟩ := bind_eq_ok_iff.mp h
  obtain rfl := Except.ok.inj h
  rw [String.toList_ofList]
  exact weight_of_fill hcs

theorem textWeight_append {s : String} (h : Closed s.toList) (t : String) :
    textWeight (s ++ t) = textWeight s + textWeight t := by
  rw [textWeight, reading, String.toList_append, h, List.filterMap_append, weight_append]
  rfl

theorem Closed.intercalate {separator : String} (hs : Closed separator.toList) {texts : List String}
    (h : ∀ text ∈ texts, Closed text.toList) :
    Closed (String.intercalate separator texts).toList := by
  induction texts with
  | nil => exact fun _ => rfl
  | cons text rest ih =>
    obtain ⟨htext, hrest⟩ := List.forall_mem_cons.mp h
    cases rest with
    | nil => simpa using htext
    | cons text' rest =>
      rw [String.intercalate_cons_cons, String.toList_append, String.toList_append]
      exact (htext.append hs).append (ih hrest)

/-- Texts with a separator between them weigh more if one of them does. -/
theorem textWeight_intercalate_lt {separator : String} (hs : Closed separator.toList)
    {front back : List String} {text text' : String}
    (hfront : ∀ t ∈ front, Closed t.toList) (htext : Closed text.toList)
    (htext' : Closed text'.toList) (h : textWeight text < textWeight text') :
    textWeight (String.intercalate separator (front ++ text :: back)) <
      textWeight (String.intercalate separator (front ++ text' :: back)) := by
  induction front with
  | nil =>
    cases back with
    | nil => simpa using h
    | cons next back =>
      rw [List.nil_append, List.nil_append, String.intercalate_cons_cons,
        String.intercalate_cons_cons, String.append_assoc, String.append_assoc,
        textWeight_append htext, textWeight_append htext']
      omega
  | cons first front ih =>
    obtain ⟨hfirst, hfront⟩ := List.forall_mem_cons.mp hfront
    have hall (t : String) :
        textWeight (String.intercalate separator (first :: front ++ t :: back)) =
          textWeight first + (textWeight separator +
            textWeight (String.intercalate separator (front ++ t :: back))) := by
      obtain ⟨next, rest, hnext⟩ := List.exists_cons_of_ne_nil (l := front ++ t :: back) (by simp)
      rw [List.cons_append, hnext, String.intercalate_cons_cons, String.append_assoc,
        textWeight_append hfirst, textWeight_append hs]
    rw [hall, hall]
    have hrest := ih hfront
    omega

theorem textWeight_join {separator : String} (hs : Closed separator.toList)
    {b : Template.Brackets} (hb : Closed b.opening.toList) {parts : List Template}
    (hparts : ∀ t ∈ parts, Closed t.text.toList) :
    textWeight (Template.join separator b parts).text = textWeight b.opening +
      (textWeight (String.intercalate separator (parts.map (·.text))) + textWeight b.closing) := by
  have hclosed : Closed (String.intercalate separator (parts.map (·.text))).toList :=
    .intercalate hs (List.forall_mem_map.mpr hparts)
  rw [Template.join, String.append_assoc, textWeight_append hb, textWeight_append hclosed]

theorem textWeight_join_lt {separator : String} (hs : Closed separator.toList)
    {b : Template.Brackets} (hb : Closed b.opening.toList) {front back : List Template}
    {part part' : Template} (hparts : ∀ t ∈ front ++ part :: back, Closed t.text.toList)
    (hpart' : Closed part'.text.toList) (h : textWeight part.text < textWeight part'.text) :
    textWeight (Template.join separator b (front ++ part :: back)).text <
      textWeight (Template.join separator b (front ++ part' :: back)).text := by
  obtain ⟨hfront, hback⟩ := List.forall_mem_append.mp hparts
  obtain ⟨hpart, hback⟩ := List.forall_mem_cons.mp hback
  have hparts' : ∀ t ∈ front ++ part' :: back, Closed t.text.toList :=
    List.forall_mem_append.mpr ⟨hfront, List.forall_mem_cons.mpr ⟨hpart', hback⟩⟩
  have hlt : textWeight (String.intercalate separator ((front ++ part :: back).map (·.text))) <
      textWeight (String.intercalate separator ((front ++ part' :: back).map (·.text))) := by
    rw [List.map_append, List.map_append]
    exact textWeight_intercalate_lt hs (List.forall_mem_map.mpr hfront) hpart hpart' h
  rw [textWeight_join hs hb hparts, textWeight_join hs hb hparts']
  omega

end Literal

namespace Language

/-- The most that the rule of a scalar weighs: Java casts bytes and shorts. -/
def castWeight : Language → Nat
  | kotlin => 0
  | java => 1

theorem textWeight_scalar_le (l : Language) (k : ScalarKind) :
    textWeight (l.dialect.style.scalar k).text ≤ l.castWeight := by
  cases l <;> cases k <;> decide

theorem textWeight_scalar (l : Language) {k : ScalarKind} (h : k ≠ .byte ∧ k ≠ .short) :
    textWeight (l.dialect.style.scalar k).text = 0 := by
  cases k with
  | byte => exact absurd rfl h.1
  | short => exact absurd rfl h.2
  | _ => cases l <;> decide

theorem castWeight_lt_primitiveArray (l : Language) (k : ScalarKind) :
    l.castWeight < textWeight (l.dialect.style.primitiveArray k).opening := by
  cases l <;> cases k <;> decide

theorem textWeight_brackets_pos (l : Language) {t : ResolvedType} (ht : t.isGeneric = true)
    {b : Template.Brackets} (hb : l.dialect.style.brackets t = .ok b) :
    0 < textWeight b.opening := by
  cases t with
  | list e n =>
    obtain rfl := Except.ok.inj hb
    cases l <;> decide
  | set e n =>
    obtain rfl := Except.ok.inj hb
    cases l <;> decide
  | array e n =>
    cases l with
    | kotlin =>
      obtain rfl := Except.ok.inj hb
      decide
    | java =>
      cases e with
      | none => cases hb
      | some e =>
        obtain ⟨name, -, hb⟩ := bind_eq_ok_iff.mp hb
        obtain rfl := Except.ok.inj hb
        -- Whatever the name ends with, the brace behind it is a letter of the template.
        have hclosed : Closed ("new " ++ name ++ "[] ").toList := by
          apply closed_of_getLast
          rw [String.toList_append, List.getLast?_append]
          simp
        have hbrace : textWeight "\x7b" = 2 := by decide
        show 0 < textWeight ("new " ++ name ++ ("[] " ++ "\x7b"))
        rw [← String.append_assoc, textWeight_append hclosed, hbrace]
        omega
  | primitive k n | string n | primitiveArray k n | named q as c n => cases ht

end Language

end BuildConstants
