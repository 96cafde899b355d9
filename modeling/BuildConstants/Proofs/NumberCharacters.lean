import BuildConstants.Proofs.ScalarLegibility

/-!
# Characters of numbers

Written numbers consist of digits, points, signs and the letter of the exponent. Reading takes no
text with an opening bracket in it, so whatever is read as a number has none.
-/

namespace BuildConstants

open Text

namespace Number

/-! Written numbers -/

def inNumber (c : Char) : Bool :=
  c.isDigit || c == '.' || c == 'e' || c == '+' || c == '-'

theorem inNumber_of_isDigit {c : Char} (h : c.isDigit = true) : inNumber c = true := by
  simp [inNumber, h]

theorem inNumber_of_mem_repr {n : Nat} {c : Char} (h : c ∈ (Nat.repr n).toList) :
    inNumber c = true :=
  inNumber_of_isDigit (isDigit_of_mem_repr h)

theorem inNumber_of_mem_intRepr {n : Int} {c : Char} (h : c ∈ (Int.repr n).toList) :
    inNumber c = true := by
  have hnumeral := isNumeral_of_mem_repr h
  rw [isNumeral, Bool.or_eq_true, beq_iff_eq] at hnumeral
  obtain rfl | hdigit := hnumeral
  · rfl
  · exact inNumber_of_isDigit hdigit

theorem inNumber_of_mem_zeros {n : Nat} {c : Char} (h : c ∈ zeros n) : inNumber c = true := by
  obtain rfl := List.eq_of_mem_replicate h
  rfl

section Layout

variable {ds : List Char} {c : Char}

theorem inNumber_of_mem_positional (hds : ∀ d ∈ ds, inNumber d = true) {point : Int}
    (h : c ∈ positional ds point) : inNumber c = true := by
  unfold positional at h
  split at h
  · simp only [List.mem_cons, List.mem_append] at h
    obtain rfl | rfl | h | h := h
    · rfl
    · rfl
    · exact inNumber_of_mem_zeros h
    · exact hds c h
  · split at h
    · simp only [List.mem_append, List.mem_cons, List.not_mem_nil, or_false] at h
      obtain (h | h) | rfl | rfl := h
      · exact hds c h
      · exact inNumber_of_mem_zeros h
      · rfl
      · rfl
    · simp only [List.mem_append, List.mem_cons] at h
      obtain h | rfl | h := h
      · exact hds c (List.mem_of_mem_take h)
      · rfl
      · exact hds c (List.mem_of_mem_drop h)

theorem inNumber_of_mem_scientific (l : Layout) (hds : ∀ d ∈ ds, inNumber d = true)
    {exponent : Int} (h : c ∈ l.scientific ds exponent) : inNumber c = true := by
  unfold Layout.scientific at h
  dsimp only at h
  rw [List.mem_append] at h
  obtain h | h := h
  · split at h
    · obtain rfl := List.mem_singleton.mp h
      rfl
    · exact hds c h
    · obtain ⟨hfirst, hrest⟩ := List.forall_mem_cons.mp hds
      obtain rfl | h := List.mem_cons.mp h
      · exact hfirst
      · obtain rfl | h := List.mem_cons.mp h
        · rfl
        · exact hrest c h
  · simp only [List.mem_append, List.mem_cons] at h
    obtain rfl | rfl | h | h := h
    · rfl
    · split <;> rfl
    · exact inNumber_of_mem_zeros h
    · exact inNumber_of_mem_repr h

theorem inNumber_of_mem_magnitude (l : Layout) {units : Nat} (h : c ∈ l.magnitude units) :
    inNumber c = true := by
  have hdigits : ∀ d ∈ dropTrailingZeros (Nat.repr (shortest units).digits).toList,
      inNumber d = true := by
    intro d hd
    rw [dropTrailingZeros, List.mem_reverse] at hd
    exact inNumber_of_mem_repr (List.mem_reverse.mp (List.dropWhile_subset _ hd))
  unfold Layout.magnitude at h
  split at h
  · revert h
    simp only [List.mem_cons, List.not_mem_nil, or_false]
    rintro (rfl | rfl | rfl) <;> rfl
  · dsimp only at h
    split at h
    · exact inNumber_of_mem_positional hdigits h
    · exact inNumber_of_mem_scientific l hdigits h

end Layout

theorem inNumber_of_mem_text {x : Binary64} (hx : x.isFinite = true) {c : Char}
    (h : c ∈ x.text.toList) : inNumber c = true := by
  cases x with
  | nan | infinite s => cases hx
  | finite s units =>
    rw [Binary64.text, Layout.write, String.toList_append, List.mem_append,
      String.toList_ofList] at h
    obtain h | h := h
    · cases s with
      | false => cases h
      | true =>
        obtain rfl : c = '-' := by simpa using h
        rfl
    · exact inNumber_of_mem_magnitude _ h

end Number

namespace Literal

open Number

theorem inNumber_of_plainInteger {k : ScalarKind} {d : Datum} {text : String}
    (h : plainInteger k d = .ok text) {c : Char} (hc : c ∈ text.toList) : inNumber c = true := by
  cases d with
  | int n =>
    rw [plainInteger] at h
    split at h
    · obtain rfl := Except.ok.inj h
      exact inNumber_of_mem_intRepr hc
    · cases h
  | _ => cases h

theorem inNumber_of_plainFloating {k : ScalarKind} {d : Datum} {text : String}
    (h : plainFloating k d = .ok text) {c : Char} (hc : c ∈ text.toList) : inNumber c = true := by
  unfold plainFloating at h
  split at h
  · cases h
  · split at h
    · cases h
    · rename_i hfinite
      split at h
      · cases h
      · obtain rfl := Except.ok.inj h
        exact inNumber_of_mem_text (by simpa using hfinite) hc

end Literal

namespace Number

/-! Numbers that are read -/

theorem mem_dropWhile_of_eq_false {α : Type} {p : α → Bool} {a : α} {as : List α} (h : a ∈ as)
    (hp : p a = false) : a ∈ as.dropWhile p := by
  induction as with
  | nil => cases h
  | cons b rest ih =>
    rw [List.dropWhile_cons]
    split
    · rename_i hb
      obtain rfl | h := List.mem_cons.mp h
      · exact Bool.noConfusion (hp.symm.trans hb)
      · exact ih h
    · exact h

/-- An opening bracket, round or curly. -/
def isOpening (c : Char) : Bool :=
  c == '(' || c == '\x7b'

theorem isOpening_cases {c : Char} (h : isOpening c = true) : c = '(' ∨ c = '\x7b' := by
  simpa [isOpening] using h

theorem not_inNumber_of_isOpening {c : Char} (h : isOpening c = true) : inNumber c = false := by
  obtain rfl | rfl := isOpening_cases h <;> rfl

section Reading

variable {c : Char} (hc : isOpening c = true)

include hc

theorem mem_trimAscii {cs : List Char} (h : c ∈ cs) : c ∈ trimAscii (cs.map asciiForm) := by
  have hform : asciiForm c = c := by obtain rfl | rfl := isOpening_cases hc <;> decide
  have hblank : isAsciiBlank c = false := by obtain rfl | rfl := isOpening_cases hc <;> decide
  have hmem : c ∈ cs.map asciiForm := List.mem_map.mpr ⟨c, h, hform⟩
  rw [trimAscii, List.mem_reverse]
  apply mem_dropWhile_of_eq_false _ hblank
  rw [List.mem_reverse]
  exact mem_dropWhile_of_eq_false hmem hblank

theorem mem_dropUnderscores {afterDigit : Bool} {cs ds : List Char}
    (h : dropUnderscores? afterDigit cs = some ds) (hmem : c ∈ cs) : c ∈ ds := by
  have hne : c ≠ '_' := by obtain rfl | rfl := isOpening_cases hc <;> decide
  fun_induction dropUnderscores? afterDigit cs generalizing ds with
  | case1 => cases hmem
  | case2 afterDigit d rest hd ih =>
    obtain ⟨rest', hrest, rfl⟩ := Option.map_eq_some_iff.mp h
    obtain hmem | hmem := List.mem_cons.mp hmem
    · exact absurd hmem hne
    · obtain rfl | hmem := List.mem_cons.mp hmem
      · exact List.mem_cons_self
      · exact List.mem_cons_of_mem _ (ih hrest hmem)
  | case3 => cases h
  | case4 => cases h
  | case5 afterDigit d rest _ _ ih =>
    obtain ⟨rest', hrest, rfl⟩ := Option.map_eq_some_iff.mp h
    obtain rfl | hmem := List.mem_cons.mp hmem
    · exact List.mem_cons_self
    · exact List.mem_cons_of_mem _ (ih hrest hmem)

theorem not_mem_of_all_digits {ds : List Char} (h : ds.all isAsciiDigit = true) : c ∉ ds := by
  have hdigit : isAsciiDigit c = false := by obtain rfl | rfl := isOpening_cases hc <;> decide
  intro hmem
  exact Bool.noConfusion (hdigit.symm.trans (List.all_eq_true.mp h c hmem))

theorem not_mem_of_readSigned {read : List Char → Option Nat}
    (hread : ∀ cs n, read cs = some n → c ∉ cs) {cs : List Char} {n : Int}
    (h : readSigned read cs = some n) : c ∉ cs := by
  have hsign : c ≠ '-' ∧ c ≠ '+' := by obtain rfl | rfl := isOpening_cases hc <;> decide
  unfold readSigned at h
  split at h
  · obtain ⟨m, hm, -⟩ := Option.map_eq_some_iff.mp h
    obtain ⟨m, hm, -⟩ := Option.bind_eq_some_iff.mp hm
    exact List.not_mem_cons_of_ne_of_not_mem hsign.1 (hread _ m hm)
  · obtain ⟨m, hm, -⟩ := Option.map_eq_some_iff.mp h
    exact List.not_mem_cons_of_ne_of_not_mem hsign.2 (hread _ m hm)
  · obtain ⟨m, hm, -⟩ := Option.map_eq_some_iff.mp h
    exact hread _ m hm

theorem not_mem_of_readExponent {cs : List Char} {e : Int} (h : readExponent cs = some e) :
    c ∉ cs := by
  have hletter : c ≠ 'e' ∧ c ≠ 'E' := by obtain rfl | rfl := isOpening_cases hc <;> decide
  unfold readExponent at h
  split at h
  · exact List.not_mem_nil
  · rename_i d rest
    split at h
    · rename_i hd
      rw [Bool.or_eq_true, decide_eq_true_eq, decide_eq_true_eq] at hd
      have hne : c ≠ d := by
        obtain rfl | rfl := hd
        · exact hletter.1
        · exact hletter.2
      refine List.not_mem_cons_of_ne_of_not_mem hne (not_mem_of_readSigned hc ?_ h)
      intro ds n hn
      split at hn
      · cases hn
      · rename_i hdigits
        simp only [Bool.or_eq_true, not_or, Bool.not_eq_true', Bool.not_eq_false] at hdigits
        exact not_mem_of_all_digits hc hdigits.2
    · cases h

theorem not_mem_of_readDecimal {negative : Bool} {cs : List Char} {x : Binary64}
    (h : readDecimal negative cs = some x) : c ∉ cs := by
  have hdigit : isAsciiDigit c = false := by obtain rfl | rfl := isOpening_cases hc <;> decide
  have hpoint : c ≠ '.' := by obtain rfl | rfl := isOpening_cases hc <;> decide
  intro hmem
  have hrest := mem_dropWhile_of_eq_false hmem hdigit
  unfold readDecimal at h
  dsimp only at h
  split at h
  · rename_i r hr
    rw [hr] at hrest
    obtain hrest | hrest := List.mem_cons.mp hrest
    · exact absurd hrest hpoint
    · dsimp only at h
      split at h
      · cases h
      · obtain ⟨e, he, -⟩ := Option.map_eq_some_iff.mp h
        exact not_mem_of_readExponent hc he (mem_dropWhile_of_eq_false hrest hdigit)
  · dsimp only at h
    split at h
    · cases h
    · obtain ⟨e, he, -⟩ := Option.map_eq_some_iff.mp h
      exact not_mem_of_readExponent hc he hrest

theorem not_mem_of_readMagnitude {negative : Bool} {cs : List Char} {x : Binary64}
    (h : readMagnitude negative cs = some x) : c ∉ cs := by
  have hlower : c.toLower = c := by obtain rfl | rfl := isOpening_cases hc <;> decide
  have hword : ∀ w : String, c ∉ w.toList → String.ofList (cs.map Char.toLower) = w → c ∉ cs := by
    rintro _ hw rfl hmem
    apply hw
    rw [String.toList_ofList]
    exact List.mem_map.mpr ⟨c, hmem, hlower⟩
  have hnames : c ∉ "inf".toList ∧ c ∉ "infinity".toList ∧ c ∉ "nan".toList := by
    obtain rfl | rfl := isOpening_cases hc <;> decide
  unfold readMagnitude at h
  dsimp only at h
  split at h
  · rename_i hinfinite
    rw [Bool.or_eq_true, decide_eq_true_eq, decide_eq_true_eq] at hinfinite
    obtain hinf | hinfinity := hinfinite
    · exact hword _ hnames.1 hinf
    · exact hword _ hnames.2.1 hinfinity
  · split at h
    · rename_i hnan
      exact hword _ hnames.2.2 hnan
    · exact not_mem_of_readDecimal hc h

theorem not_mem_of_readSignedDouble {cs : List Char} {x : Binary64}
    (h : readSignedDouble cs = some x) : c ∉ cs := by
  have hsign : c ≠ '-' ∧ c ≠ '+' := by obtain rfl | rfl := isOpening_cases hc <;> decide
  unfold readSignedDouble at h
  split at h
  · exact List.not_mem_cons_of_ne_of_not_mem hsign.1 (not_mem_of_readMagnitude hc h)
  · exact List.not_mem_cons_of_ne_of_not_mem hsign.2 (not_mem_of_readMagnitude hc h)
  · exact not_mem_of_readMagnitude hc h

theorem not_mem_of_readDouble {cs : List Char} {x : Binary64} (h : readDouble? cs = some x) :
    c ∉ cs := by
  intro hmem
  obtain ⟨ds, hds, h⟩ := Option.bind_eq_some_iff.mp h
  exact not_mem_of_readSignedDouble hc h (mem_dropUnderscores hc hds (mem_trimAscii hc hmem))

end Reading

end Number

end BuildConstants
