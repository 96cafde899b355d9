import BuildConstants.Dialect.Java
import BuildConstants.Dialect.Kotlin

/-!
# Reading quoted literals

The lexical rules of both languages for what stands between quotes. Kotlin reads all escapes in
one pass. Java first translates Unicode escapes, which start at a backslash behind an even number
of backslashes, and reads the other escapes afterwards. Only escapes that some literal may need
are read; octal ones are not among them.
-/

namespace BuildConstants

open Text Number

namespace Literal

/-- The character of four hexadecimal digits. -/
def unicode? (a b c d : Char) : Option Char := do
  let a ← digitValue? a
  let b ← digitValue? b
  let c ← digitValue? c
  let d ← digitValue? d
  ofCodePoint? (((a * 16 + b) * 16 + c) * 16 + d)

/-- What a letter behind a backslash means in both languages. -/
def letter? (e : Char) : Option Char :=
  if e = 'n' then some '\n'
  else if e = 'r' then some '\r'
  else if e = 't' then some '\t'
  else if e = 'b' then some '\x08'
  else if e = '\\' || e = singleQuote || e = doubleQuote then some e
  else none

/-- The characters that no backslash stands before. -/
def bare : List Char → List Char
  | [] => []
  | c :: rest =>
    if c = '\\' then match rest with
      | _ :: rest => bare rest
      | [] => ['\\']
    else c :: bare rest

/-- The text up to the first quote that no backslash stands before, and what follows it. -/
def untilQuote (q : Char) : List Char → Option (List Char × List Char)
  | [] => none
  | c :: rest =>
    if c = q then some ([], rest)
    else if c = '\\' then match rest with
      | e :: rest => (untilQuote q rest).map fun r => (c :: e :: r.1, r.2)
      | [] => none
    else (untilQuote q rest).map fun r => (c :: r.1, r.2)

def isBreak (c : Char) : Bool :=
  c == '\n' || c == '\r'

end Literal

namespace Kotlin

open Literal (unicode? letter? bare isBreak)

def unescape : List Char → Option (List Char)
  | [] => some []
  | c :: rest =>
    if c = '\\' then match rest with
      | 'u' :: a :: b :: c :: d :: rest =>
        (unicode? a b c d).bind fun x => (unescape rest).map (x :: ·)
      | e :: rest =>
        (if e = '$' then some e else letter? e).bind fun x => (unescape rest).map (x :: ·)
      | [] => none
    else (unescape rest).map (c :: ·)

/-- The literal stands between two quotes on one line and is read as the text. No reserved
character stands in it without a backslash. -/
def Spells (q : Char) (reserved : List Char) (literal : String) (text : List Char) : Prop :=
  ∃ body, literal.toList = q :: (body ++ [q]) ∧ (∀ c ∈ body, isBreak c = false) ∧
    (∀ c ∈ bare body, c ∉ reserved) ∧ unescape body = some text

end Kotlin

namespace Java

open Literal (unicode? letter? untilQuote isBreak)

/-- Translates Unicode escapes; `odd` tells that an odd number of backslashes stands in front. -/
def translate (odd : Bool) : List Char → Option (List Char)
  | [] => some []
  | c :: rest =>
    if c = '\\' then
      if odd then (translate false rest).map (c :: ·)
      else match rest with
        | 'u' :: a :: b :: c :: d :: rest =>
          (unicode? a b c d).bind fun x => (translate false rest).map (x :: ·)
        | 'u' :: _ => none
        | rest => (translate true rest).map (c :: ·)
    else (translate false rest).map (c :: ·)

def unescape : List Char → Option (List Char)
  | [] => some []
  | c :: rest =>
    if c = '\\' then match rest with
      | e :: rest =>
        (if e = 'f' then some '\x0c' else if e = 's' then some ' ' else letter? e).bind fun x =>
          (unescape rest).map (x :: ·)
      | [] => none
    else (unescape rest).map (c :: ·)

/-- Once its Unicode escapes are translated, the literal stands on one line, ends at its last
quote only, and is read as the text. -/
def Spells (q : Char) (literal : String) (text : List Char) : Prop :=
  ∃ body, translate false literal.toList = some (q :: (body ++ [q])) ∧
    (∀ c ∈ body, isBreak c = false) ∧ untilQuote q (body ++ [q]) = some (body, []) ∧
    unescape body = some text

end Java

namespace Literal

/-! Escapes, character by character -/

theorem digitValue?_hexDigit : ∀ n < 16, digitValue? (hexDigit n) = some n := by
  decide

theorem ofCodePoint?_of_lt {n : Nat} (h : n < 0xd800) : ofCodePoint? n = some (Char.ofNat n) := by
  have hs : isSurrogate n = false := by
    rw [isSurrogate, firstSurrogate, decide_eq_false (by omega), Bool.false_and]
  have hn : n < 0x110000 := by omega
  simp [ofCodePoint?, hs, hn]

theorem hexDigits_four (n : Nat) : hexDigits 4 n =
    [hexDigit (n / 16 / 16 / 16 % 16), hexDigit (n / 16 / 16 % 16), hexDigit (n / 16 % 16),
      hexDigit (n % 16)] :=
  rfl

theorem unicode?_hexDigits {n : Nat} (h : n < 0xd800) :
    unicode? (hexDigit (n / 16 / 16 / 16 % 16)) (hexDigit (n / 16 / 16 % 16))
      (hexDigit (n / 16 % 16)) (hexDigit (n % 16)) = some (Char.ofNat n) := by
  have hvalue (m : Nat) : digitValue? (hexDigit (m % 16)) = some (m % 16) :=
    digitValue?_hexDigit _ (Nat.mod_lt _ (by decide))
  have hsum : ((n / 16 / 16 / 16 % 16 * 16 + n / 16 / 16 % 16) * 16 + n / 16 % 16) * 16 + n % 16
      = n := by omega
  simp only [unicode?, hvalue, Option.bind_eq_bind, Option.bind_some, hsum]
  exact ofCodePoint?_of_lt h

/-- The three ways in which a character is written between quotes. -/
inductive Escaped (q : Char) (dollar : Bool) (c : Char) : List Char → Prop
  | letter {e : Char} (he : letter? e = some c) : Escaped q dollar c ['\\', e]
  | dollar (hd : dollar = true) (hc : c = '$') : Escaped q dollar c ['\\', '$']
  | unicode (hlow : c.toNat < 128) (hslash : c ≠ '\\') (hquote : c ≠ q) (hbreak : isBreak c = false) :
      Escaped q dollar c (unicodeEscape c.toNat)
  | self (hslash : c ≠ '\\') (hquote : c ≠ q) (hbreak : isBreak c = false)
      (hd : dollar = true → c ≠ '$') : Escaped q dollar c [c]

def IsQuote (q : Char) : Prop :=
  q = doubleQuote ∨ q = singleQuote

theorem enclosingQuote_isQuote (cs : List Char) : IsQuote (enclosingQuote cs) := by
  unfold enclosingQuote
  split
  · exact .inl rfl
  · exact .inr rfl

theorem escapeChar_escaped {q : Char} (hq : IsQuote q) (dollar : Bool) (c : Char) :
    Escaped q dollar c (escapeChar (some q) dollar c) := by
  by_cases hslash : c = '\\'
  · subst hslash
    exact .letter (by decide)
  by_cases hn : c = '\n'
  · subst hn
    exact .letter (by decide)
  by_cases hr : c = '\r'
  · subst hr
    exact .letter (by decide)
  by_cases ht : c = '\t'
  · subst ht
    exact .letter (by decide)
  by_cases hb : c = '\x08'
  · subst hb
    exact .letter (by decide)
  have hbreak : isBreak c = false := by simp [isBreak, hn, hr]
  by_cases hquote : c = q
  · subst hquote
    rcases hq with rfl | rfl
    · exact .letter (by decide)
    · exact .letter (by decide)
  have hne : ¬ some c = some q := fun h => hquote (Option.some.inj h)
  by_cases hd : dollar = true ∧ c = '$'
  · obtain ⟨rfl, rfl⟩ := hd
    have hesc : escapeChar (some q) true '$' = ['\\', '$'] := by simp [escapeChar, hne]
    rw [hesc]
    exact .dollar rfl rfl
  have hdollar : (dollar && c == '$') = false := by
    rw [Bool.eq_false_iff]
    simpa using hd
  by_cases hlow : c.toNat < 32 ∨ c.toNat = 127
  · have hesc : escapeChar (some q) dollar c = unicodeEscape c.toNat := by
      simp [escapeChar, hslash, hn, hr, ht, hb, hne, hdollar, hlow]
    rw [hesc]
    exact .unicode (by omega) hslash hquote hbreak
  · have hesc : escapeChar (some q) dollar c = [c] := by
      simp [escapeChar, hslash, hn, hr, ht, hb, hne, hdollar, hlow]
    rw [hesc]
    exact .self hslash hquote hbreak fun h hc => hd ⟨h, hc⟩

theorem untilQuote_self (q : Char) (rest : List Char) :
    untilQuote q (q :: rest) = some ([], rest) := by
  cases rest <;> simp [untilQuote]

theorem untilQuote_cons {q c : Char} (hquote : c ≠ q) (hslash : c ≠ '\\') (rest : List Char) :
    untilQuote q (c :: rest) = (untilQuote q rest).map fun r => (c :: r.1, r.2) := by
  cases rest <;> simp [untilQuote, hquote, hslash]

theorem IsQuote.ne_slash {q : Char} (hq : IsQuote q) : '\\' ≠ q := by
  rcases hq with rfl | rfl
  · decide
  · decide

theorem untilQuote_pair {q : Char} (hq : IsQuote q) (e : Char) (rest : List Char) :
    untilQuote q ('\\' :: e :: rest) =
      (untilQuote q rest).map fun r => ('\\' :: e :: r.1, r.2) := by
  simp [untilQuote, hq.ne_slash]

theorem bare_cons {c : Char} (hslash : c ≠ '\\') (rest : List Char) :
    bare (c :: rest) = c :: bare rest := by
  cases rest <;> simp [bare, hslash]

theorem bare_pair (e : Char) (rest : List Char) : bare ('\\' :: e :: rest) = bare rest := by
  simp [bare]

theorem hexDigit_ordinary : ∀ n < 16, hexDigit n ≠ '\\' ∧ hexDigit n ≠ singleQuote ∧
    hexDigit n ≠ doubleQuote ∧ hexDigit n ≠ '$' ∧ isBreak (hexDigit n) = false := by
  decide

theorem mem_hexDigits {w n : Nat} {c : Char} (h : c ∈ hexDigits w n) : ∃ d < 16, c = hexDigit d := by
  induction w generalizing n with
  | zero => cases h
  | succ w ih =>
    rcases List.mem_append.mp h with h | h
    · exact ih h
    · exact ⟨n % 16, Nat.mod_lt _ (by decide), List.mem_singleton.mp h⟩

theorem bare_append_of_ne {cs : List Char} (h : ∀ c ∈ cs, c ≠ '\\') (rest : List Char) :
    bare (cs ++ rest) = cs ++ bare rest := by
  induction cs with
  | nil => rfl
  | cons c cs ih =>
    rw [List.cons_append, bare_cons (h c List.mem_cons_self),
      ih fun d hd => h d (List.mem_cons_of_mem c hd)]
    rfl

theorem untilQuote_append_of_ne {q : Char} {cs : List Char} (h : ∀ c ∈ cs, c ≠ q ∧ c ≠ '\\')
    (rest : List Char) :
    untilQuote q (cs ++ rest) = (untilQuote q rest).map fun r => (cs ++ r.1, r.2) := by
  induction cs with
  | nil => simp
  | cons c cs ih =>
    have hc := h c List.mem_cons_self
    rw [List.cons_append, untilQuote_cons hc.1 hc.2,
      ih fun d hd => h d (List.mem_cons_of_mem c hd), Option.map_map]
    rfl

theorem letter?_ordinary {e c : Char} (h : letter? e = some c) : e ≠ 'u' ∧ isBreak e = false := by
  constructor
  · rintro rfl
    simp [letter?, singleQuote, doubleQuote] at h
  · rw [isBreak, Bool.or_eq_false_iff, beq_eq_false_iff_ne, beq_eq_false_iff_ne]
    constructor
    · rintro rfl
      simp [letter?, singleQuote, doubleQuote] at h
    · rintro rfl
      simp [letter?, singleQuote, doubleQuote] at h

theorem letter?_ne_dollar {e c : Char} (h : letter? e = some c) : e ≠ '$' := by
  rintro rfl
  simp [letter?, singleQuote, doubleQuote] at h

/-- A reader takes a piece for a text and goes on behind it, whatever stands there. -/
def Reads (read : List Char → Option (List Char)) (piece text : List Char) : Prop :=
  ∀ rest, read (piece ++ rest) = (read rest).map (text ++ ·)

theorem Reads.nil (read : List Char → Option (List Char)) : Reads read [] [] := by
  intro rest
  simp

theorem Reads.append {read : List Char → Option (List Char)} {as bs xs ys : List Char}
    (h : Reads read as xs) (h' : Reads read bs ys) : Reads read (as ++ bs) (xs ++ ys) := by
  intro rest
  rw [List.append_assoc, h, h', Option.map_map]
  simp [Function.comp_def]

/-- A piece of a body: no line breaks, no end of the literal, and read as the text. -/
structure Segment (q : Char) (read : List Char → Option (List Char)) (body text : List Char) :
    Prop where
  onLine : ∀ c ∈ body, isBreak c = false
  opened : ∀ rest, untilQuote q (body ++ rest) =
    (untilQuote q rest).map fun r => (body ++ r.1, r.2)
  reads : Reads read body text

namespace Segment

variable {q : Char} {read : List Char → Option (List Char)}

theorem nil (q : Char) (read : List Char → Option (List Char)) : Segment q read [] [] where
  onLine c hc := by cases hc
  opened rest := by simp
  reads := .nil read

theorem append {as bs xs ys : List Char} (h : Segment q read as xs) (h' : Segment q read bs ys) :
    Segment q read (as ++ bs) (xs ++ ys) where
  onLine c hc := by
    rcases List.mem_append.mp hc with hc | hc
    · exact h.onLine c hc
    · exact h'.onLine c hc
  opened rest := by
    rw [List.append_assoc, h.opened, h'.opened, Option.map_map]
    simp [Function.comp_def]
  reads := h.reads.append h'.reads

theorem single {c : Char} (hslash : c ≠ '\\') (hquote : c ≠ q) (hbreak : isBreak c = false)
    (hread : Reads read [c] [c]) : Segment q read [c] [c] where
  onLine d hd := by
    obtain rfl := List.mem_singleton.mp hd
    exact hbreak
  opened rest := by
    rw [List.singleton_append, untilQuote_cons hquote hslash]
    rfl
  reads := hread

theorem pair (hq : IsQuote q) {e c : Char} (hbreak : isBreak e = false)
    (hread : Reads read ['\\', e] [c]) : Segment q read ['\\', e] [c] where
  onLine d hd := by
    simp only [List.mem_cons, List.not_mem_nil, or_false] at hd
    rcases hd with rfl | rfl
    · decide
    · exact hbreak
  opened rest := by
    simp only [List.cons_append, List.nil_append, untilQuote_pair hq]
  reads := hread

theorem untilQuote_append {body text : List Char} (h : Segment q read body text)
    (rest : List Char) : untilQuote q (body ++ q :: rest) = some (body, rest) := by
  rw [h.opened, untilQuote_self]
  simp

theorem read_eq {body text : List Char} (h : Segment q read body text)
    (hnil : read [] = some []) : read body = some text := by
  simpa [hnil] using h.reads []

end Segment

end Literal

namespace Kotlin

open Literal

theorem unescape_cons {c : Char} (hslash : c ≠ '\\') (rest : List Char) :
    unescape (c :: rest) = (unescape rest).map (c :: ·) := by
  rw [unescape.eq_def]
  simp [hslash]

theorem unescape_pair {e : Char} (he : e ≠ 'u') (rest : List Char) :
    unescape ('\\' :: e :: rest) =
      (if e = '$' then some e else letter? e).bind fun x => (unescape rest).map (x :: ·) := by
  rw [unescape.eq_def]
  simp only [if_true]
  split
  · simp_all
  · simp_all
  · simp_all

theorem unescape_unicodeEscape {n : Nat} (h : n < 0xd800) (rest : List Char) :
    unescape (unicodeEscape n ++ rest) = (unescape rest).map (Char.ofNat n :: ·) := by
  simp [unicodeEscape, hexDigits_four, unescape, unicode?_hexDigits h]

theorem reads_single {c : Char} (hslash : c ≠ '\\') : Reads unescape [c] [c] := by
  intro rest
  rw [List.singleton_append, unescape_cons hslash]
  rfl

theorem reads_pair {e c : Char} (hu : e ≠ 'u')
    (he : (if e = '$' then some e else letter? e) = some c) : Reads unescape ['\\', e] [c] := by
  intro rest
  simp only [List.cons_append, List.nil_append, unescape_pair hu, he, Option.bind_some]

/-- A segment in which no reserved character stands without a backslash. -/
structure Segment (q : Char) (dollar : Bool) (body text : List Char) : Prop extends
    Literal.Segment q unescape body text where
  bare_append : ∀ rest, bare (body ++ rest) = bare body ++ bare rest
  unreserved : ∀ c ∈ bare body, c ≠ q ∧ (dollar = true → c ≠ '$')

theorem Segment.nil (q : Char) (dollar : Bool) : Segment q dollar [] [] where
  toSegment := .nil q unescape
  bare_append rest := rfl
  unreserved c hc := by cases hc

theorem Segment.append {q : Char} {dollar : Bool} {as bs xs ys : List Char}
    (h : Segment q dollar as xs) (h' : Segment q dollar bs ys) :
    Segment q dollar (as ++ bs) (xs ++ ys) where
  toSegment := h.toSegment.append h'.toSegment
  bare_append rest := by
    rw [List.append_assoc, h.bare_append, h'.bare_append, h.bare_append, List.append_assoc]
  unreserved c hc := by
    rw [h.bare_append] at hc
    rcases List.mem_append.mp hc with hc | hc
    · exact h.unreserved c hc
    · exact h'.unreserved c hc

theorem Segment.single {q : Char} {dollar : Bool} {c : Char} (hslash : c ≠ '\\') (hquote : c ≠ q)
    (hbreak : isBreak c = false) (hd : dollar = true → c ≠ '$') : Segment q dollar [c] [c] where
  toSegment := .single hslash hquote hbreak (reads_single hslash)
  bare_append rest := by
    rw [List.singleton_append, bare_cons hslash, bare_cons hslash]
    rfl
  unreserved d hm := by
    rw [bare_cons hslash] at hm
    obtain rfl := List.mem_singleton.mp hm
    exact ⟨hquote, hd⟩

theorem Segment.pair {q : Char} (hq : IsQuote q) {dollar : Bool} {e c : Char} (hu : e ≠ 'u')
    (hbreak : isBreak e = false) (he : (if e = '$' then some e else letter? e) = some c) :
    Segment q dollar ['\\', e] [c] where
  toSegment := .pair hq hbreak (reads_pair hu he)
  bare_append rest := by
    simp only [List.cons_append, List.nil_append, bare_pair]
    rfl
  unreserved d hd := by
    rw [bare_pair] at hd
    cases hd

theorem Segment.unicode {q : Char} (hq : IsQuote q) {dollar : Bool} {c : Char}
    (hlow : c.toNat < 128) : Segment q dollar (unicodeEscape c.toNat) [c] := by
  have hdigit : ∀ d ∈ hexDigits 4 c.toNat, d ≠ '\\' ∧ d ≠ singleQuote ∧ d ≠ doubleQuote ∧
      d ≠ '$' ∧ isBreak d = false := by
    intro d hd
    obtain ⟨n, hn, rfl⟩ := mem_hexDigits hd
    exact hexDigit_ordinary n hn
  have hslash : ∀ d ∈ hexDigits 4 c.toNat, d ≠ '\\' := fun d hd => (hdigit d hd).1
  have hquote : ∀ d ∈ hexDigits 4 c.toNat, d ≠ q := by
    rcases hq with rfl | rfl
    · exact fun d hd => (hdigit d hd).2.2.1
    · exact fun d hd => (hdigit d hd).2.1
  have hbare : bare (unicodeEscape c.toNat) = hexDigits 4 c.toNat := by
    have h := bare_append_of_ne hslash []
    rw [List.append_nil] at h
    rw [unicodeEscape, bare_pair, h]
    exact List.append_nil _
  refine ⟨⟨?_, ?_, ?_⟩, ?_, ?_⟩
  · intro d hd
    simp only [unicodeEscape, List.mem_cons] at hd
    rcases hd with rfl | rfl | hd
    · decide
    · decide
    · exact (hdigit d hd).2.2.2.2
  · intro rest
    rw [unicodeEscape, List.cons_append, List.cons_append, untilQuote_pair hq,
      untilQuote_append_of_ne fun d hd => ⟨hquote d hd, hslash d hd⟩, Option.map_map]
    rfl
  · intro rest
    rw [unescape_unicodeEscape (by omega), Char.ofNat_toNat]
    rfl
  · intro rest
    rw [hbare, unicodeEscape, List.cons_append, List.cons_append, bare_pair,
      bare_append_of_ne hslash]
  · rw [hbare]
    exact fun d hd => ⟨hquote d hd, fun _ => (hdigit d hd).2.2.2.1⟩

theorem Segment.of_escaped {q : Char} (hq : IsQuote q) {dollar : Bool} {c : Char} {cs : List Char}
    (h : Escaped q dollar c cs) : Segment q dollar cs [c] := by
  cases h with
  | @letter e he =>
    have hletter : (if e = '$' then some e else letter? e) = some c := by
      rw [if_neg (letter?_ne_dollar he), he]
    exact .pair hq (letter?_ordinary he).1 (letter?_ordinary he).2 hletter
  | dollar hd hc =>
    subst hc
    exact .pair hq (by decide) (by decide) (by decide)
  | unicode hlow hslash hquote hbreak => exact .unicode hq hlow
  | self hslash hquote hbreak hd => exact .single hslash hquote hbreak hd

theorem escape_segment {q : Char} (hq : IsQuote q) (dollar : Bool) (cs : List Char) :
    Segment q dollar (escape (some q) dollar cs) cs := by
  induction cs with
  | nil => exact .nil q dollar
  | cons c cs ih =>
    rw [escape_cons]
    exact (Segment.of_escaped hq (escapeChar_escaped hq dollar c)).append ih

theorem untilQuote_escape {q : Char} (hq : IsQuote q) (dollar : Bool) (cs rest : List Char) :
    untilQuote q (escape (some q) dollar cs ++ q :: rest) =
      some (escape (some q) dollar cs, rest) :=
  (escape_segment hq dollar cs).untilQuote_append rest

theorem unescape_escape {q : Char} (hq : IsQuote q) (dollar : Bool) (cs : List Char) :
    unescape (escape (some q) dollar cs) = some cs :=
  (escape_segment hq dollar cs).read_eq rfl

theorem enclose_spells {q : Char} (hq : IsQuote q) (dollar : Bool) {reserved : List Char}
    (hr : ∀ c ∈ reserved, c = q ∨ dollar = true ∧ c = '$') (cs : List Char) :
    Spells q reserved (enclose q dollar cs) cs := by
  have hsegment := escape_segment hq dollar cs
  refine ⟨escape (some q) dollar cs, String.toList_ofList, hsegment.onLine, ?_,
    unescape_escape hq dollar cs⟩
  intro c hc hm
  rcases hr c hm with rfl | ⟨hd, rfl⟩
  · exact (hsegment.unreserved _ hc).1 rfl
  · exact (hsegment.unreserved _ hc).2 hd rfl

end Kotlin

namespace Java

open Literal

theorem translate_cons {c : Char} (hslash : c ≠ '\\') (rest : List Char) :
    translate false (c :: rest) = (translate false rest).map (c :: ·) := by
  rw [translate.eq_def]
  simp [hslash]

theorem translate_pair {e : Char} (he : e ≠ 'u') (rest : List Char) :
    translate false ('\\' :: e :: rest) =
      (translate true (e :: rest)).map ('\\' :: ·) := by
  rw [translate.eq_def]
  simp only [if_true, Bool.false_eq_true, if_false]
  split
  · simp_all
  · simp_all
  · rfl

theorem translate_second (e : Char) (rest : List Char) :
    translate true (e :: rest) = (translate false rest).map (e :: ·) := by
  rw [translate.eq_def]
  simp

theorem translate_unicodeEscape {n : Nat} (h : n < 0xd800) (rest : List Char) :
    translate false (unicodeEscape n ++ rest) = (translate false rest).map (Char.ofNat n :: ·) := by
  simp [unicodeEscape, hexDigits_four, translate, unicode?_hexDigits h]

theorem unescape_cons {c : Char} (hslash : c ≠ '\\') (rest : List Char) :
    unescape (c :: rest) = (unescape rest).map (c :: ·) := by
  cases rest <;> simp [unescape, hslash]

theorem unescape_letter {e c : Char} (he : letter? e = some c) (rest : List Char) :
    unescape ('\\' :: e :: rest) = (unescape rest).map (c :: ·) := by
  have hf : e ≠ 'f' := by
    rintro rfl
    simp [letter?, singleQuote, doubleQuote] at he
  have hs : e ≠ 's' := by
    rintro rfl
    simp [letter?, singleQuote, doubleQuote] at he
  simp [unescape, hf, hs, he]

theorem reads_translate_single {c : Char} (hslash : c ≠ '\\') :
    Reads (translate false) [c] [c] := by
  intro rest
  rw [List.singleton_append, translate_cons hslash]
  rfl

theorem reads_translate_pair {e : Char} (he : e ≠ 'u') :
    Reads (translate false) ['\\', e] ['\\', e] := by
  intro rest
  -- The pair leaves an even number of backslashes behind.
  rw [List.cons_append, List.singleton_append, translate_pair he, translate_second,
    Option.map_map]
  rfl

theorem reads_translate_unicode {c : Char} (hlow : c.toNat < 128) :
    Reads (translate false) (unicodeEscape c.toNat) [c] := by
  intro rest
  rw [translate_unicodeEscape (by omega), Char.ofNat_toNat]
  rfl

theorem reads_single {c : Char} (hslash : c ≠ '\\') : Reads unescape [c] [c] := by
  intro rest
  rw [List.singleton_append, unescape_cons hslash]
  rfl

theorem reads_letter {e c : Char} (he : letter? e = some c) : Reads unescape ['\\', e] [c] := by
  intro rest
  simp only [List.cons_append, List.nil_append, unescape_letter he]

/-- What is written for a character translates into a segment that is read as the character. -/
theorem segment_of_escaped {q : Char} (hq : IsQuote q) {c : Char} {cs : List Char}
    (h : Escaped q false c cs) :
    ∃ body, Reads (translate false) cs body ∧ Segment q unescape body [c] := by
  cases h with
  | @letter e he =>
    exact ⟨_, reads_translate_pair (letter?_ordinary he).1,
      .pair hq (letter?_ordinary he).2 (reads_letter he)⟩
  | dollar hd hc => cases hd
  | unicode hlow hslash hquote hbreak =>
    exact ⟨_, reads_translate_unicode hlow, .single hslash hquote hbreak (reads_single hslash)⟩
  | self hslash hquote hbreak hd =>
    exact ⟨_, reads_translate_single hslash, .single hslash hquote hbreak (reads_single hslash)⟩

theorem escape_segment {q : Char} (hq : IsQuote q) (cs : List Char) :
    ∃ body, Reads (translate false) (escape (some q) false cs) body ∧
      Segment q unescape body cs := by
  induction cs with
  | nil => exact ⟨[], .nil _, .nil q unescape⟩
  | cons c cs ih =>
    obtain ⟨as, htranslate, ha⟩ := segment_of_escaped hq (escapeChar_escaped hq false c)
    obtain ⟨bs, htranslates, hb⟩ := ih
    rw [escape_cons]
    exact ⟨as ++ bs, htranslate.append htranslates, ha.append hb⟩

theorem enclose_spells {q : Char} (hq : IsQuote q) (cs : List Char) :
    Spells q (enclose q false cs) cs := by
  obtain ⟨body, htranslate, hsegment⟩ := escape_segment hq cs
  refine ⟨body, ?_, hsegment.onLine, hsegment.untilQuote_append [], hsegment.read_eq rfl⟩
  rw [enclose, String.toList_ofList, translate_cons hq.ne_slash.symm, htranslate,
    translate_cons hq.ne_slash.symm]
  rfl

end Java

/-- Every quoted text reads back as itself in both languages, and so does every quoted
character. -/
theorem quoted_literals_read_back (s : String) (c : Char) :
    Kotlin.Spells doubleQuote [doubleQuote, '$'] (Kotlin.quoteString s) s.toList ∧
    Java.Spells doubleQuote (Java.quoteString s) s.toList ∧
    Kotlin.Spells singleQuote [singleQuote] (Kotlin.quoteChar c) [c] ∧
    Java.Spells singleQuote (Java.quoteChar c) [c] := by
  refine ⟨?_, Java.enclose_spells (.inl rfl) s.toList, ?_, Java.enclose_spells (.inr rfl) [c]⟩
  · refine Kotlin.enclose_spells (.inl rfl) true (fun d hd => ?_) s.toList
    simp only [List.mem_cons, List.not_mem_nil, or_false] at hd
    exact hd.imp_right fun h => ⟨rfl, h⟩
  · refine Kotlin.enclose_spells (.inr rfl) false (fun d hd => ?_) [c]
    exact .inl (List.mem_singleton.mp hd)

end BuildConstants
