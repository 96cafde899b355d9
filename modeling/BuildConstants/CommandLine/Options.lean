import BuildConstants.Text.Name

/-!
# Options of a command line

An option is a flag, takes a value, or answers at once. A long option may be shortened as long as
only one option fits; its value stands behind an equals sign or is the next word. Short options
without a value may share a hyphen, and a short option may have its value attached. Behind two
hyphens there are only words.
-/

namespace BuildConstants.CommandLine

/-- Why a command line is not carried out: it is wrong, or an option has answered already. -/
inductive Stop
  | misused
  | answered (output : String)

inductive Effect (σ : Type)
  | flag (set : σ → σ)
  /-- The value may be refused. -/
  | value (set : String → σ → Option σ)
  | answer (output : String)

structure Rule (σ : Type) where
  names : List String
  effect : Effect σ

inductive Attached
  | nothing
  | direct (text : List Char)
  | behindEquals (text : List Char)

structure Given (σ : Type) where
  effect : Effect σ
  attached : Attached

inductive Piece (σ : Type)
  | word (text : String)
  | separator
  | option (given : Given σ)
  | unknown

section

variable {σ : Type}

def named (rules : List (Rule σ)) : List (String × Effect σ) :=
  rules.flatMap fun r => r.names.map fun name => (name, r.effect)

def effect? (rules : List (Rule σ)) (name : List Char) : Option (Effect σ) :=
  ((named rules).find? fun e => e.1.toList == name).map (·.2)

def splitEquals (cs : List Char) : List Char × Attached :=
  match cs.dropWhile (· != '=') with
  | _ :: rest => (cs.takeWhile (· != '='), .behindEquals rest)
  | [] => (cs, .nothing)

/-- The options that a shortened name or a short option with its value may stand for. -/
def candidates (rules : List (Rule σ)) (cs : List Char) : List (Given σ) :=
  match cs with
  | '-' :: '-' :: _ =>
    let (start, attached) := splitEquals cs
    ((named rules).filter fun e => start.isPrefixOf e.1.toList).map fun e => ⟨e.2, attached⟩
  | _ =>
    ((named rules).filter fun e => e.1.toList == cs.take 2).map fun e =>
      ⟨e.2, .direct (cs.drop 2)⟩

def given? (rules : List (Rule σ)) (cs : List Char) : Option (Given σ) :=
  match effect? rules cs with
  | some e => some ⟨e, .nothing⟩
  | none =>
    let (name, attached) := splitEquals cs
    (effect? rules name).map fun e => ⟨e, attached⟩

def isDigits (cs : List Char) : Bool :=
  cs.all Text.isDecimalDigit

/-- A hyphen and then a number, whose fraction may be missing. -/
def isNegativeNumber : List Char → Bool
  | '-' :: rest =>
    let cs := Text.withoutFinalBreak rest
    let fraction := (cs.dropWhile Text.isDecimalDigit).drop 1
    !cs.isEmpty && isDigits cs
      || ((cs.dropWhile Text.isDecimalDigit).head? == some '.' && !fraction.isEmpty
        && isDigits fraction)
  | _ => false

def classify (rules : List (Rule σ)) (argument : String) : Except Stop (Piece σ) :=
  let cs := argument.toList
  match cs with
  | '-' :: _ :: _ => match given? rules cs with
    | some given => .ok (.option given)
    | none => match candidates rules cs with
      | [given] => .ok (.option given)
      | [] => .ok (if isNegativeNumber cs || cs.contains ' ' then .word argument else .unknown)
      | _ => .error .misused
  | _ => .ok (.word argument)

def classifyAll (rules : List (Rule σ)) : List String → Except Stop (List (Piece σ))
  | [] => .ok []
  | "--" :: rest => .ok (.separator :: rest.map .word)
  | a :: rest => do
    let piece ← classify rules a
    let pieces ← classifyAll rules rest
    return piece :: pieces

/-- What an option does, in order, with the values of its effects; and whether letters are left
over that stand for nothing. -/
structure Effects (σ : Type) where
  steps : List (Effect σ × Option String)
  surplus : Bool

def Effects.awaits (es : Effects σ) : Bool :=
  match es.steps.getLast? with
  | some (.value _, none) => true
  | _ => false

/-- The value behind a letter; an equals sign may stand in front of it. -/
def letterValue : List Char → Option String
  | [] => none
  | '=' :: cs => some (String.ofList cs)
  | cs => some (String.ofList cs)

/-- The short options behind another one. Letters behind an option with a value are the value. -/
def cluster (rules : List (Rule σ)) : List Char → Except Stop (Effects σ)
  | [] => .ok ⟨[], false⟩
  | c :: cs =>
    if c = '-' || c = '=' then .error .misused
    else match effect? rules ['-', c] with
      | none => .ok ⟨[], true⟩
      | some (.value set) => .ok ⟨[(.value set, letterValue cs)], false⟩
      | some e => do
        let es ← cluster rules cs
        return { es with steps := (e, none) :: es.steps }

/-- All that a given option does. Only options with a value take something behind an equals
sign. -/
def Given.effects (rules : List (Rule σ)) (g : Given σ) : Except Stop (Effects σ) :=
  match g.effect, g.attached with
  | e, .nothing => .ok ⟨[(e, none)], false⟩
  | .value set, .direct cs | .value set, .behindEquals cs =>
    .ok ⟨[(.value set, some (String.ofList cs))], false⟩
  | _, .behindEquals _ => .error .misused
  | e, .direct cs => do
    let es ← cluster rules cs
    return { es with steps := (e, none) :: es.steps }

abbrev Awaited (σ : Type) := Option (String → σ → Option σ)

def accept (set : String → σ → Option σ) (text : String) (s : σ) : Except Stop σ :=
  match set text s with
  | some s => .ok s
  | none => .error .misused

/-- Carries out effects up to a value that is still to come. -/
def carryOut (s : σ) : List (Effect σ × Option String) → Except Stop (σ × Awaited σ)
  | [] => .ok (s, none)
  | (.flag set, _) :: rest => carryOut (set s) rest
  | (.answer output, _) :: _ => .error (.answered output)
  | (.value set, some text) :: rest => do carryOut (← accept set text s) rest
  | (.value set, none) :: _ => .ok (s, some set)

/-- The place of the only word that is not the value of an option. -/
inductive Slot (σ : Type)
  | vacant (set : String → σ → σ)
  /-- The word stands immediately before. -/
  | filled
  | closed

def startsWithWord : List (Piece σ) → Bool
  | .word _ :: _ => true
  | _ => false

/-- Reads all pieces; surplus ones are an error, but only at the end. -/
def read (rules : List (Rule σ)) (slot : Slot σ) (surplus : Bool) (awaited : Awaited σ) (s : σ) :
    List (Piece σ) → Except Stop σ
  | [] => match slot, surplus, awaited with
    | .vacant _, _, _ | _, true, _ | _, _, some _ => .error .misused
    | _, false, none => .ok s
  | piece :: rest => match awaited, piece with
    | some set, .word text => do read rules slot surplus none (← accept set text s) rest
    | some _, _ => .error .misused
    | none, .word text => match slot with
      | .vacant set => read rules .filled surplus none (set text s) rest
      | _ => read rules .closed true none s rest
    | none, .separator => match slot with
      | .vacant _ => read rules slot surplus none s rest
      | .filled => read rules .closed surplus none s rest
      | .closed => read rules .closed true none s rest
    | none, .unknown => read rules (after slot) true none s rest
    | none, .option g => do
      let es ← g.effects rules
      if es.awaits && !startsWithWord rest then .error .misused
      let (s, awaited) ← carryOut s es.steps
      read rules (after slot) (surplus || es.surplus) awaited s rest
where
  after : Slot σ → Slot σ
    | .vacant set => .vacant set
    | .filled | .closed => .closed

/-- Reads the options in front of the first word; gives that word and all that follows. -/
def readLeading (rules : List (Rule σ)) (surplus : Bool) (s : σ) :
    List (Piece σ × String) → Except Stop (σ × Bool × List String)
  | [] => .ok (s, surplus, [])
  | (.word _, a) :: rest => .ok (s, surplus, a :: rest.map (·.2))
  | (.separator, _) :: _ => .error .misused
  | (.unknown, _) :: rest => readLeading rules true s rest
  | (.option g, _) :: rest => do
    let es ← g.effects rules
    let (s, awaited) ← carryOut s es.steps
    if awaited.isSome then .error .misused else readLeading rules (surplus || es.surplus) s rest

end

end BuildConstants.CommandLine
