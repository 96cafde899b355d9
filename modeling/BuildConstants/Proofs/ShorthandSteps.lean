import BuildConstants.Proofs.ShorthandReading

/-!
# The reader of the shorthand, step by step

Reading a type is a chain of small steps: passing over blanks, looking for a mark, taking the
letters of a name. A step leaves the end of the text that it was given, and what stands behind the
first character that it leaves has no part in its outcome. Both carry over to chains of steps.
-/

namespace BuildConstants.TypeExpr

open Text

/-- A step takes characters from the front of a text, or stops. -/
abbrev Step (α : Type) := StateT (List Char) (Except Stop) α

namespace Step

variable {α β : Type}

def stop (problem : ShorthandProblem) : Step α :=
  fun cs => .error ⟨problem, cs⟩

def blanks : Step Unit :=
  fun cs => .ok ((), trimLeft cs)

def symbol (m : Char) : Step Bool
  | [] => .ok (false, [])
  | c :: rest => .ok (if c = m then (true, rest) else (false, c :: rest))

def letters : Step (List Char) :=
  fun cs => if (cs.takeWhile isNameChar).isEmpty then .error ⟨.expectedName, cs⟩
    else .ok (cs.takeWhile isNameChar, cs.dropWhile isNameChar)

def finish : Step Unit
  | [] => .ok ((), [])
  | c :: rest => .error ⟨.unexpected c, c :: rest⟩

/-- Whether the mark is next, behind blanks. -/
def mark (m : Char) : Step Bool := do
  blanks
  symbol m

theorem mark_eq (m : Char) (cs : List Char) : mark m cs = symbol m (trimLeft cs) := rfl

theorem mark_of_eq {m : Char} {cs rest : List Char} (h : trimLeft cs = m :: rest) :
    mark m cs = .ok (true, rest) := by
  rw [mark_eq, h, symbol, if_pos rfl]

theorem mark_of_ne {m : Char} {cs : List Char} (h : ∀ rest, trimLeft cs ≠ m :: rest) :
    mark m cs = .ok (false, trimLeft cs) := by
  rw [mark_eq]
  cases hcs : trimLeft cs with
  | nil => rfl
  | cons c rest =>
    have hc : c ≠ m := by
      rintro rfl
      exact h rest hcs
    rw [symbol, if_neg hc]

end Step

open Step

theorem trimLeft_trimLeft (cs : List Char) : trimLeft (trimLeft cs) = trimLeft cs :=
  List.dropWhile_idempotent isBlank cs

/-! ### The readers as chains of steps -/

theorem readQuestion_eq (cs : List Char) : mark '?' cs = .ok (readQuestion cs) := by
  rw [readQuestion]
  split
  · rename_i heq
    exact mark_of_eq heq
  · rename_i hne
    exact mark_of_ne hne

theorem readBrackets_eq : readBrackets = (do
    if ← mark '[' then
      if ← mark ']' then return true else stop .expectedBracket
    else return false : Step Bool) := by
  funext cs
  rw [readBrackets]
  split
  · rename_i inside hopening
    show _ = mark '[' cs >>= _
    rw [mark_of_eq hopening]
    split
    · rename_i hclosing
      show _ = mark ']' inside >>= _
      rw [mark_of_eq hclosing]
      rfl
    · rename_i hclosing
      show _ = mark ']' inside >>= _
      rw [mark_of_ne hclosing]
      rfl
  · rename_i hopening
    show _ = mark '[' cs >>= _
    rw [mark_of_ne hopening]
    rfl

theorem readSuffixes_eq (name : String) (arguments : List TypeExpr) :
    readSuffixes name arguments = (do
      let nullable ← mark '?'
      let array ← readBrackets
      return ⟨name, array, nullable, arguments⟩ : Step TypeExpr) := by
  funext cs
  rw [readSuffixes]
  show _ = mark '?' cs >>= _
  rw [readQuestion_eq]
  show _ = readBrackets (readQuestion cs).2 >>= _
  cases readBrackets (readQuestion cs).2 <;> rfl

theorem readType_succ (fuel : Nat) : readType (fuel + 1) = (do
    blanks
    let name ← letters
    if ← mark '<' then
      let arguments ← (readArguments fuel : Step (List TypeExpr))
      readSuffixes (String.ofList name) arguments
    else readSuffixes (String.ofList name) [] : Step TypeExpr) := by
  funext cs
  rw [readType]
  show _ = letters (trimLeft cs) >>= _
  rw [letters]
  by_cases hname : ((trimLeft cs).takeWhile isNameChar).isEmpty
  · rw [if_pos hname, if_pos hname]
    rfl
  · rw [if_neg hname, if_neg hname]
    show _ = mark '<' ((trimLeft cs).dropWhile isNameChar) >>= _
    split
    · rename_i rest hless
      rw [mark_of_eq hless]
      show _ = readArguments fuel rest >>= _
      cases readArguments fuel rest <;> rfl
    · rename_i hless
      rw [mark_of_ne hless]
      rfl

theorem readArguments_succ (fuel : Nat) : readArguments (fuel + 1) = (do
    let t ← (readType fuel : Step TypeExpr)
    if ← mark ',' then
      let rest ← (readArguments fuel : Step (List TypeExpr))
      return t :: rest
    else if ← mark '>' then return [t]
    else stop .expectedClose : Step (List TypeExpr)) := by
  funext cs
  rw [readArguments]
  show _ = readType fuel cs >>= _
  cases readType fuel cs with
  | error stop => rfl
  | ok result =>
    obtain ⟨t, rest⟩ := result
    show _ = mark ',' rest >>= _
    dsimp only
    split
    · rename_i further hcomma
      rw [mark_of_eq hcomma]
      show _ = readArguments fuel further >>= _
      cases readArguments fuel further <;> rfl
    · rename_i further hgreater
      rw [mark_of_ne (by simp [hgreater])]
      show _ = mark '>' (trimLeft rest) >>= _
      rw [mark_of_eq (by rw [trimLeft_trimLeft, hgreater])]
      rfl
    · rename_i hcomma hgreater
      rw [mark_of_ne hcomma]
      show _ = mark '>' (trimLeft rest) >>= _
      rw [mark_of_ne (by simpa [trimLeft_trimLeft] using hgreater), trimLeft_trimLeft]
      rfl

/-- The whole reader, with the fuel that it is given. -/
def readToEnd (fuel : Nat) : Step TypeExpr := do
  let t ← (readType fuel : Step TypeExpr)
  blanks
  finish
  return t

theorem readWhole_eq (cs : List Char) :
    readWhole cs = readToEnd (2 * cs.length + 1) cs >>= fun result => .ok result.1 := by
  rw [readWhole]
  show _ = (readType (2 * cs.length + 1) cs >>= _) >>= _
  cases readType (2 * cs.length + 1) cs with
  | error stop => rfl
  | ok result =>
    obtain ⟨t, rest⟩ := result
    show _ = (finish (trimLeft rest) >>= _) >>= _
    dsimp only
    cases trimLeft rest <;> rfl

/-! ### What a step leaves -/

/-- The text that is left where a step ends, whether it succeeds or stops. -/
def left {α : Type} : Except Stop (α × List Char) → List Char
  | .ok (_, rest) => rest
  | .error stop => stop.rest

/-- The same outcome in front of another text. -/
def before {α : Type} (rest : List Char) :
    Except Stop (α × List Char) → Except Stop (α × List Char)
  | .ok (a, _) => .ok (a, rest)
  | .error stop => .error ⟨stop.problem, rest⟩

/-- A step leaves an end of its text, of which only the first character has a part in the
outcome. -/
structure Local {α : Type} (r : Step α) : Prop where
  suffix : ∀ cs, left (r cs) <:+ cs
  exchange : ∀ {front taken tail tail' : List Char}, tail.head? = tail'.head? →
    left (r (front ++ tail)) = taken ++ tail →
    r (front ++ tail') = before (taken ++ tail') (r (front ++ tail))

namespace Local

variable {α β : Type} {r : Step α} {f : α → Step β}

theorem pure (a : α) : Local (pure a : Step α) where
  suffix _ := List.suffix_refl _
  exchange {front taken tail tail'} _ h := by
    have h : front ++ tail = taken ++ tail := h
    rw [List.append_cancel_right h]
    rfl

theorem stop (problem : ShorthandProblem) : Local (stop problem : Step α) where
  suffix _ := List.suffix_refl _
  exchange {front taken tail tail'} _ h := by
    have h : front ++ tail = taken ++ tail := h
    rw [List.append_cancel_right h]
    rfl

theorem bind (hr : Local r) (hf : ∀ a, Local (f a)) : Local (r >>= f) where
  suffix cs := by
    have hleft := hr.suffix cs
    show left (r cs >>= _) <:+ cs
    cases hread : r cs with
    | error stop =>
      rw [hread] at hleft
      exact hleft
    | ok result =>
      obtain ⟨a, rest⟩ := result
      rw [hread] at hleft
      exact ((hf a).suffix rest).trans hleft
  exchange {front taken tail tail'} htail h := by
    show (r (front ++ tail') >>= _) = before _ (r (front ++ tail) >>= _)
    replace h : left (r (front ++ tail) >>= _) = taken ++ tail := h
    cases hread : r (front ++ tail) with
    | error stop =>
      rw [hread] at h
      have hleft : left (r (front ++ tail)) = taken ++ tail := by
        rw [hread]
        exact h
      rw [hr.exchange htail hleft, hread]
      rfl
    | ok result =>
      obtain ⟨a, rest⟩ := result
      rw [hread] at h
      replace h : left (f a rest) = taken ++ tail := h
      -- The second step leaves the tail, so the first one has left all of it.
      obtain ⟨more, hmore⟩ := h ▸ (hf a).suffix rest
      obtain rfl : (more ++ taken) ++ tail = rest := by rw [List.append_assoc, hmore]
      have hleft : left (r (front ++ tail)) = more ++ taken ++ tail := by
        rw [hread]
        rfl
      rw [hr.exchange htail hleft, hread]
      exact (hf a).exchange htail h

theorem ite {c : Prop} [Decidable c] {r r' : Step α} (hr : Local r) (hr' : Local r') :
    Local (if c then r else r') := by
  split
  · exact hr
  · exact hr'

/-- Of the tail only the first character decides whether `dropWhile` leaves it. -/
theorem dropWhile_exchange {p : Char → Bool} {front taken tail tail' : List Char}
    (htail : tail.head? = tail'.head?) (h : (front ++ tail).dropWhile p = taken ++ tail) :
    (front ++ tail').dropWhile p = taken ++ tail' ∧
      (front ++ tail').takeWhile p = (front ++ tail).takeWhile p := by
  induction front with
  | nil =>
    have hlength := (List.dropWhile_sublist p (l := tail)).length_le
    rw [List.nil_append] at h
    rw [h, List.length_append] at hlength
    obtain rfl : taken = [] := List.eq_nil_of_length_eq_zero (by omega)
    cases tail with
    | nil =>
      obtain rfl : tail' = [] := by simpa using htail.symm
      exact ⟨rfl, rfl⟩
    | cons c rest =>
      obtain ⟨rest', rfl⟩ : ∃ rest', tail' = c :: rest' := List.head?_eq_some_iff.mp htail.symm
      have hc : p c = false := by
        cases hc : p c with
        | false => rfl
        | true =>
          have hlength := (List.dropWhile_sublist p (l := rest)).length_le
          rw [List.dropWhile_cons_of_pos hc, List.nil_append] at h
          rw [h, List.length_cons] at hlength
          omega
      simp [hc]
  | cons c front ih =>
    cases hc : p c with
    | true =>
      simp only [List.cons_append, List.dropWhile_cons_of_pos hc,
        List.takeWhile_cons_of_pos hc] at h ⊢
      obtain ⟨hdrop, htake⟩ := ih h
      exact ⟨hdrop, congrArg (c :: ·) htake⟩
    | false =>
      have hne : ¬ p c = true := by simp [hc]
      rw [List.cons_append, List.dropWhile_cons_of_neg hne, ← List.cons_append] at h
      rw [← List.append_cancel_right h]
      simp only [List.cons_append, List.dropWhile_cons_of_neg hne,
        List.takeWhile_cons_of_neg hne, and_self]

theorem blanks : Local blanks where
  suffix _ := List.dropWhile_suffix isBlank
  exchange htail h := by
    show Except.ok ((), _) = Except.ok ((), _)
    rw [trimLeft, (dropWhile_exchange htail h).1]

theorem left_letters (cs : List Char) : left (Step.letters cs) = cs.dropWhile isNameChar := by
  rw [Step.letters]
  split
  · rename_i hnone
    have hwhole := List.takeWhile_append_dropWhile (p := isNameChar) (l := cs)
    rw [List.isEmpty_iff.mp hnone, List.nil_append] at hwhole
    exact hwhole.symm
  · rfl

theorem letters : Local letters where
  suffix cs := by
    rw [left_letters]
    exact List.dropWhile_suffix isNameChar
  exchange {front taken tail tail'} htail h := by
    rw [left_letters] at h
    obtain ⟨hdrop, htake⟩ := dropWhile_exchange htail h
    have hleft := (left_letters (front ++ tail')).trans hdrop
    rw [Step.letters, htake] at hleft ⊢
    rw [Step.letters]
    split
    · rename_i hnone
      rw [if_pos hnone] at hleft
      have hleft : front ++ tail' = taken ++ tail' := hleft
      rw [hleft]
      rfl
    · rw [hdrop]
      rfl

theorem symbol (m : Char) : Local (symbol m) where
  suffix cs := by
    cases cs with
    | nil => exact List.suffix_refl _
    | cons c rest =>
      rw [Step.symbol]
      split
      · exact List.suffix_cons c rest
      · exact List.suffix_refl _
  exchange {front taken tail tail'} htail h := by
    cases front with
    | cons c front =>
      simp only [List.cons_append, Step.symbol] at h ⊢
      split at h
      · rename_i hc
        rw [if_pos hc, if_pos hc, List.append_cancel_right h]
        rfl
      · rename_i hc
        have hfront : c :: front = taken := List.append_cancel_right h
        rw [if_neg hc, if_neg hc, ← hfront]
        rfl
    | nil =>
      cases tail with
      | nil =>
        obtain rfl : tail' = [] := by simpa using htail.symm
        obtain rfl : taken = [] := by simpa [Step.symbol, left] using h
        rfl
      | cons c rest =>
        obtain ⟨rest', rfl⟩ : ∃ rest', tail' = c :: rest' :=
          List.head?_eq_some_iff.mp htail.symm
        simp only [List.nil_append, Step.symbol] at h ⊢
        split at h
        · have hlength := congrArg List.length h
          simp only [left, List.length_append, List.length_cons] at hlength
          omega
        · rename_i hc
          obtain rfl : taken = [] := List.self_eq_append_left.mp h
          rw [if_neg hc, if_neg hc]
          rfl

theorem finish : Local finish where
  suffix cs := by
    cases cs <;> exact List.suffix_refl _
  exchange {front taken tail tail'} htail h := by
    cases front with
    | cons c front =>
      have hfront : c :: front = taken := List.append_cancel_right h
      rw [← hfront]
      rfl
    | nil =>
      cases tail with
      | nil =>
        obtain rfl : tail' = [] := by simpa using htail.symm
        obtain rfl : taken = [] := by simpa [Step.finish, left] using h
        rfl
      | cons c rest =>
        obtain ⟨rest', rfl⟩ : ∃ rest', tail' = c :: rest' :=
          List.head?_eq_some_iff.mp htail.symm
        obtain rfl : taken = [] := List.self_eq_append_left.mp h
        rfl

theorem mark (m : Char) : Local (mark m) :=
  blanks.bind fun _ => symbol m

theorem readBrackets : Local readBrackets := by
  rw [readBrackets_eq]
  exact (mark '[').bind fun _ =>
    ite ((mark ']').bind fun _ => ite (pure _) (stop _)) (pure _)

theorem readSuffixes (name : String) (arguments : List TypeExpr) :
    Local (readSuffixes name arguments) := by
  rw [readSuffixes_eq]
  exact (mark '?').bind fun _ => readBrackets.bind fun _ => pure _

theorem readers (fuel : Nat) :
    Local (readType fuel : Step TypeExpr) ∧ Local (readArguments fuel : Step (List TypeExpr)) := by
  induction fuel with
  | zero => exact ⟨stop .expectedName, stop .expectedName⟩
  | succ fuel ih =>
    obtain ⟨htype, harguments⟩ := ih
    constructor
    · rw [readType_succ]
      exact blanks.bind fun _ => letters.bind fun _ => (mark '<').bind fun _ =>
        ite (harguments.bind fun _ => readSuffixes _ _) (readSuffixes _ _)
    · rw [readArguments_succ]
      exact htype.bind fun _ => (mark ',').bind fun _ =>
        ite (harguments.bind fun _ => pure _)
          ((mark '>').bind fun _ => ite (pure _) (stop _))

theorem readToEnd (fuel : Nat) : Local (readToEnd fuel) :=
  (readers fuel).1.bind fun _ => blanks.bind fun _ => finish.bind fun _ => pure _

end Local

end BuildConstants.TypeExpr
