import BuildConstants.Proofs.ShorthandGrammar
import BuildConstants.Text.Lowercase

/-!
# Lower case and trimming

A blank is its own lower case, becomes none and comes from none. Nor does it separate a sigma from
anything that the end of the text would not. So it is the same to trim first or to lower first.
-/

namespace BuildConstants.Text

/-! ### Tables that do not meet -/

def apart (xs ys : List (Nat × Nat)) : Bool :=
  xs.all fun x => ys.all fun y => Nat.blt x.2 y.1 || Nat.blt y.2 x.1

theorem lt_or_lt_of_apart {xs ys : List (Nat × Nat)} (h : apart xs ys = true) {x y : Nat × Nat}
    (hx : x ∈ xs) (hy : y ∈ ys) : x.2 < y.1 ∨ y.2 < x.1 := by
  have hxy := List.all_eq_true.mp (List.all_eq_true.mp h x hx) y hy
  simpa only [Bool.or_eq_true, Nat.blt_eq] using hxy

/-- Intervals that hold all blanks, and nothing that lower case touches. -/
def blankTable : List (Nat × Nat) :=
  (9, 32) :: TypeExpr.blankRanges

theorem forall_of_lt {bound : Nat} {P : Char → Prop} (h : ∀ n < bound, P (Char.ofNat n)) {c : Char}
    (hc : c.toNat < bound) : P c := by
  have hn := h c.toNat hc
  rwa [Char.ofNat_toNat] at hn

theorem covers_of_isBlank {c : Char} (h : isBlank c = true) : covers blankTable c = true := by
  rcases TypeExpr.isBlank_cases h with hlow | ⟨-, hbeyond⟩
  · have hleast : 9 ≤ c.toNat := by
      refine Nat.le_of_not_lt fun hlt => Bool.eq_false_iff.mp ?_ h
      exact forall_of_lt (P := fun c => isBlank c = false) (by decide) hlt
    refine covers_eq_true_iff.mpr ⟨(9, 32), List.mem_cons_self, hleast, ?_⟩
    show c.toNat ≤ 32
    omega
  · obtain ⟨r, hr, hbounds⟩ := covers_eq_true_iff.mp hbeyond
    exact covers_eq_true_iff.mpr ⟨r, List.mem_cons_of_mem _ hr, hbounds⟩

theorem covers_of_apart {table : List (Nat × Nat)} (h : apart table blankTable = true) {c : Char}
    (hc : isBlank c = true) : covers table c = false := by
  rw [Bool.eq_false_iff]
  intro htable
  obtain ⟨x, hx, hlo, hhi⟩ := covers_eq_true_iff.mp htable
  obtain ⟨y, hy, hlo', hhi'⟩ := covers_eq_true_iff.mp (covers_of_isBlank hc)
  have hapart := lt_or_lt_of_apart h hx hy
  omega

theorem caseIgnorableRanges_apart : apart caseIgnorableRanges blankTable = true := by
  decide +kernel

theorem casedRanges_apart : apart casedRanges blankTable = true := by
  decide +kernel

theorem capitalRuns_apart :
    apart (capitalRuns.map fun r => (r.first, r.last)) blankTable = true := by
  decide +kernel

theorem shiftedRuns_apart : apart (capitalRuns.map fun r =>
    (((r.first : Int) + r.shift).toNat, ((r.last : Int) + r.shift).toNat)) blankTable = true := by
  decide +kernel

/-! ### Single characters -/

theorem CapitalRun.bounds {r : CapitalRun} {n : Nat} (h : r.holds n = true) :
    r.first ≤ n ∧ n ≤ r.last := by
  simp only [holds, Bool.and_eq_true, decide_eq_true_eq] at h
  exact h.1

theorem lowerChar_of_isBlank {c : Char} (h : isBlank c = true) : lowerChar c = [c] := by
  have hsigma : c ≠ capitalSigma := by
    rintro rfl
    exact absurd h (by decide)
  have hdotted : c.toNat ≠ 0x130 := by
    intro hc
    rw [← Char.ofNat_toNat c, hc] at h
    exact absurd h (by decide)
  have hrun : capitalRuns.find? (fun r => r.holds c.toNat) = none := by
    refine List.find?_eq_none.mpr fun r hr hholds => ?_
    obtain ⟨y, hy, hlo, hhi⟩ := covers_eq_true_iff.mp (covers_of_isBlank h)
    have hapart := lt_or_lt_of_apart capitalRuns_apart (List.mem_map_of_mem hr) hy
    have hbounds := CapitalRun.bounds hholds
    simp only at hapart
    omega
  by_cases hascii : c.toNat < 128
  · have hlow : c.toNat < 33 := by
      rcases TypeExpr.isBlank_cases h with hlow | ⟨hbeyond, -⟩ <;> omega
    have hlower := forall_of_lt (P := fun c => c.toLower = c) (by decide) hlow
    rw [lowerChar, if_pos hascii, hlower]
  · simp only [lowerChar, if_neg hascii, if_neg hdotted, if_neg hsigma, hrun]

theorem toNat_ofNat_cases (n : Nat) : (Char.ofNat n).toNat = n ∨ (Char.ofNat n).toNat = 0 := by
  by_cases hvalid : n.isValidChar
  · rw [Char.ofNat, dif_pos hvalid]
    exact .inl rfl
  · rw [Char.ofNat, dif_neg hvalid]
    exact .inr rfl

theorem isBlank_ofNat_shift {c : Char} {r : CapitalRun} (hr : r ∈ capitalRuns)
    (h : r.holds c.toNat = true) :
    isBlank (Char.ofNat ((c.toNat : Int) + r.shift).toNat) = false := by
  rw [Bool.eq_false_iff]
  intro hblank
  obtain ⟨y, hy, hlo, hhi⟩ := covers_eq_true_iff.mp (covers_of_isBlank hblank)
  have hleast : ∀ y ∈ blankTable, 9 ≤ y.1 := by decide
  have hy9 := hleast y hy
  have hapart := lt_or_lt_of_apart shiftedRuns_apart (List.mem_map_of_mem hr) hy
  have hbounds := CapitalRun.bounds h
  simp only at hapart
  rcases toNat_ofNat_cases ((c.toNat : Int) + r.shift).toNat with hcode | hcode <;> omega

theorem isBlank_lowerChar {c : Char} (h : isBlank c = false) :
    ∀ d ∈ lowerChar c, isBlank d = false := by
  rw [lowerChar]
  split
  · rename_i hascii
    have hlower := forall_of_lt
      (P := fun c => isBlank c = false → isBlank c.toLower = false) (by decide) hascii
    exact List.forall_mem_singleton.mpr (hlower h)
  · split
    · exact List.forall_mem_cons.mpr ⟨by decide, List.forall_mem_singleton.mpr (by decide)⟩
    · split
      · exact List.forall_mem_singleton.mpr (by decide)
      · split
        · rename_i r hr
          have hholds := List.find?_some hr
          exact List.forall_mem_singleton.mpr
            (isBlank_ofNat_shift (List.mem_of_find?_eq_some hr) hholds)
        · exact List.forall_mem_singleton.mpr h

theorem lowerChar_ne_nil (c : Char) : lowerChar c ≠ [] := by
  rw [lowerChar]
  split
  · simp
  · split
    · simp
    · split
      · simp
      · split <;> simp

/-! ### Neighbours -/

def BlankFirst (cs : List Char) : Prop :=
  ∀ c ∈ cs.head?, isBlank c = true

theorem blankFirst_of_forall {bs : List Char} (hb : ∀ c ∈ bs, isBlank c = true) : BlankFirst bs :=
  fun c hc => hb c (List.mem_of_mem_head? hc)

theorem meetsCased_append {xs ys : List Char} (h : BlankFirst ys) :
    meetsCased (xs ++ ys) = meetsCased xs := by
  induction xs with
  | nil =>
    cases ys with
    | nil => rfl
    | cons c ys =>
      have hc : isBlank c = true := h c rfl
      have hskip : ¬ covers caseIgnorableRanges c = true :=
        Bool.eq_false_iff.mp (covers_of_apart caseIgnorableRanges_apart hc)
      rw [List.nil_append, meetsCased, List.dropWhile_cons_of_neg hskip]
      exact covers_of_apart casedRanges_apart hc
  | cons x xs ih =>
    by_cases hx : covers caseIgnorableRanges x = true
    · rw [meetsCased, List.cons_append, List.dropWhile_cons_of_pos hx]
      rw [meetsCased, List.dropWhile_cons_of_pos hx]
      exact ih
    · rw [meetsCased, List.cons_append, List.dropWhile_cons_of_neg hx]
      rw [meetsCased, List.dropWhile_cons_of_neg hx]

theorem lowerFrom_append {xs ys : List Char} (h : BlankFirst ys) (before : List Char) :
    lowerFrom before (xs ++ ys) = lowerFrom before xs ++ lowerFrom (xs.reverse ++ before) ys := by
  induction xs generalizing before with
  | nil => rfl
  | cons x xs ih =>
    rw [List.cons_append, lowerFrom, lowerFrom, meetsCased_append h, ih, List.append_assoc]
    simp

theorem lowerFrom_behind {before : List Char} (h : BlankFirst before) (near cs : List Char) :
    lowerFrom (near ++ before) cs = lowerFrom near cs := by
  induction cs generalizing near with
  | nil => rfl
  | cons c rest ih =>
    rw [lowerFrom, lowerFrom, meetsCased_append h, ← List.cons_append, ih]

theorem lowerFrom_blanks {bs : List Char} (hb : ∀ c ∈ bs, isBlank c = true)
    (before rest : List Char) :
    lowerFrom before (bs ++ rest) = bs ++ lowerFrom (bs.reverse ++ before) rest := by
  induction bs generalizing before with
  | nil => rfl
  | cons b bs ih =>
    obtain ⟨hblank, hb⟩ := List.forall_mem_cons.mp hb
    have hsigma : b ≠ capitalSigma := by
      rintro rfl
      exact absurd hblank (by decide)
    rw [List.cons_append, lowerFrom, ih hb, lowerChar_of_isBlank hblank]
    simp [hsigma]

/-! ### Ends -/

theorem exists_lowerFrom_cons (before : List Char) (c : Char) (rest : List Char) :
    ∃ ds, ds ≠ [] ∧ lowerFrom before (c :: rest) = ds ++ lowerFrom (c :: before) rest ∧
      (isBlank c = false → ∀ d ∈ ds, isBlank d = false) := by
  rw [lowerFrom]
  split
  · exact ⟨_, by simp, rfl, fun _ => List.forall_mem_singleton.mpr (by decide)⟩
  · exact ⟨_, lowerChar_ne_nil c, rfl, isBlank_lowerChar⟩

theorem lowerFrom_ne_nil {before cs : List Char} (h : cs ≠ []) : lowerFrom before cs ≠ [] := by
  obtain ⟨c, rest, rfl⟩ := List.exists_cons_of_ne_nil h
  obtain ⟨ds, hds, heq, -⟩ := exists_lowerFrom_cons before c rest
  rw [heq]
  exact fun hnil => hds (List.append_eq_nil_iff.mp hnil).1

theorem isBlank_head_lowerFrom {before cs : List Char} (h : ∀ c ∈ cs.head?, isBlank c = false) :
    ∀ d ∈ (lowerFrom before cs).head?, isBlank d = false := by
  cases cs with
  | nil => nofun
  | cons c rest =>
    obtain ⟨ds, hds, heq, hblank⟩ := exists_lowerFrom_cons before c rest
    obtain ⟨d, ds, rfl⟩ := List.exists_cons_of_ne_nil hds
    rw [heq]
    rintro _ ⟨⟩
    exact hblank (h c rfl) d List.mem_cons_self

theorem isBlank_getLast_lowerFrom {cs : List Char} (h : ∀ c ∈ cs.getLast?, isBlank c = false)
    (before : List Char) : ∀ d ∈ (lowerFrom before cs).getLast?, isBlank d = false := by
  induction cs generalizing before with
  | nil => nofun
  | cons c rest ih =>
    obtain ⟨ds, hds, heq, hblank⟩ := exists_lowerFrom_cons before c rest
    rw [heq]
    cases rest with
    | nil =>
      rw [lowerFrom, List.append_nil]
      exact fun d hd => hblank (h c rfl) d (List.mem_of_getLast? hd)
    | cons c' rest =>
      have hsome : (lowerFrom (c :: before) (c' :: rest)).getLast?.isSome = true := by
        simp [lowerFrom_ne_nil]
      rw [List.getLast?_append, Option.or_of_isSome hsome]
      exact ih (by simpa using h) (c :: before)

theorem trimLeft_lowerFrom (cs : List Char) :
    trimLeft (lowerFrom [] cs) = lowerFrom [] (trimLeft cs) := by
  obtain ⟨bs, hb, hcs, hfirst⟩ := split_trimLeft cs
  have hreverse : BlankFirst bs.reverse := blankFirst_of_forall (by simpa using hb)
  have hlower : lowerFrom [] cs = bs ++ lowerFrom [] (trimLeft cs) := by
    conv => lhs; rw [hcs]
    rw [lowerFrom_blanks hb, List.append_nil, ← List.nil_append bs.reverse,
      lowerFrom_behind hreverse]
  rw [hlower, trimLeft_eq hb (isBlank_head_lowerFrom hfirst)]

theorem trimRight_lowerFrom (cs : List Char) :
    trimRight (lowerFrom [] cs) = lowerFrom [] (trimRight cs) := by
  obtain ⟨bs, hb, hcs, hlast⟩ := split_trimRight cs
  have hlower : lowerFrom [] cs = lowerFrom [] (trimRight cs) ++ bs := by
    conv => lhs; rw [hcs]
    rw [lowerFrom_append (blankFirst_of_forall hb), ← List.append_nil bs, lowerFrom_blanks hb]
    rfl
  rw [hlower, trimRight_eq hb (isBlank_getLast_lowerFrom hlast [])]

theorem lowercase_trim (s : String) : lowercase (trim s) = trim (lowercase s) := by
  rw [lowercase, trim, lowercase, trim, String.toList_ofList, String.toList_ofList,
    trimLeft_lowerFrom, trimRight_lowerFrom]

end BuildConstants.Text
