import VennDiagram.Text.Numeral
import VennDiagram.Text.Quoted

/-!
# `VennDiagram.Command.Arguments`: reading arguments by a grammar

A grammar lists options and names at most one operand. An option is asked for by one of its names, by
the beginning of a long name that no other option shares, or by a name with a value attached to it. The
value `--` is none: an option that has it attached is blank.

Arguments are first sorted into items, each by itself: `Grammar.items`. The items are then read from left
to right: `Grammar.walk`. What fits nowhere is surplus, and whoever reads the arguments decides what
becomes of it.

An argument `--` ends the options: what follows it are plain arguments, whatever they look like. A
negative number is a plain argument too.
-/

set_option autoImplicit false

namespace VennDiagram.Command

/-- What is wrong with arguments. -/
inductive Complaint where
  | ambiguous (argument : String) (names : List String)
  | needsValue (option : String)
  | unusedValue (option value : String)
  | notANumber (option value : String)
  | notAnInteger (option value : String)
  | missing (operand : String)
  | unknownChoice (operand value : String) (choices : List String)
  | unrecognized (arguments : List String)
deriving DecidableEq, Repr

/-- The message of a complaint. -/
def Complaint.message : Complaint → String
  | .ambiguous argument names =>
    "ambiguous option: " ++ argument ++ " could match " ++ ", ".intercalate names
  | .needsValue option => "argument " ++ option ++ ": expected one argument"
  | .unusedValue option value =>
    "argument " ++ option ++ ": ignored explicit argument " ++ Text.quoted value
  | .notANumber option value => "argument " ++ option ++ ": invalid float value: " ++ Text.quoted value
  | .notAnInteger option value => "argument " ++ option ++ ": invalid int value: " ++ Text.quoted value
  | .missing operand => "the following arguments are required: " ++ operand
  | .unknownChoice operand value choices =>
    "argument " ++ operand ++ ": invalid choice: " ++ Text.quoted value ++ " (choose from " ++
      ", ".intercalate (choices.map Text.quoted) ++ ")"
  | .unrecognized arguments => "unrecognized arguments: " ++ " ".intercalate arguments

/-- Why the reading of arguments ends early. -/
inductive Stop where
  | help
  | complaint (c : Complaint)
deriving DecidableEq, Repr

/-- What an option does to settings of type `σ`. Its value is `none` if it is blank. -/
inductive Action (σ : Type) where
  | help
  | text (set : Option String → σ → σ)
  | number (set : Option Float → σ → σ)
  | integer (set : Option Int → σ → σ)

/-- An option: the names it is asked for by, and what it does. -/
structure Flag (σ : Type) where
  names : List String
  action : Action σ

/-- The options and the operand of a command. -/
structure Grammar (σ : Type) where
  flags : List (Flag σ)
  operand : Option String
  /-- The operand takes all the arguments after it along. -/
  takesRest : Bool

/-- What an argument is by itself. -/
inductive Item (σ : Type) where
  /-- The end of the options. -/
  | separator
  | plain
  /-- It looks like an option and is none. -/
  | unknown
  /-- An option that takes no value. -/
  | help
  /-- An option that takes no value, with a value. -/
  | unused (f : Flag σ) (value : String)
  /-- An option with its value. -/
  | given (f : Flag σ) (value : String)
  /-- An option whose value is the next argument. -/
  | awaiting (f : Flag σ)

variable {σ : Type}

/-- How messages name an option. -/
def Flag.shown (f : Flag σ) : String := "/".intercalate f.names

/-- A value, read by `read?`; the value `--` is none. -/
def valueOf {β : Type} (read? : List Char → Option β) (invalid : Complaint) (value : String) :
    Except Stop (Option β) :=
  if value = "--" then .ok none
  else
    match read? value.toList with
    | some b => .ok (some b)
    | none => .error (.complaint invalid)

/-- The settings after an option took a value. -/
def Flag.store (f : Flag σ) (value : String) (s : σ) : Except Stop σ :=
  match f.action with
  | .help => .error .help
  | .text set => .ok (set (if value = "--" then none else some value) s)
  | .number set => (valueOf Text.readNumber? (.notANumber f.shown value) value).map (set · s)
  | .integer set => (valueOf Text.readInt? (.notAnInteger f.shown value) value).map (set · s)

/-! ### Sorting -/

/-- The letter of a name of one letter. -/
def letterOf? (name : String) : Option Char :=
  match name.toList with
  | ['-', c] => some c
  | _ => none

/-- What remains unused of a value attached to an option that takes none. After a name of one letter,
the letters of the option count as asking for it again. -/
def Flag.unused? (f : Flag σ) (name : String) (value : List Char) : Option (List Char) :=
  if (letterOf? name).isSome && !value.isEmpty then
    match value.dropWhile (f.names.filterMap letterOf?).contains with
    | [] => none
    | rest => some rest
  else some value

/-- The item of an option, asked for by one of its names, with what is attached to it. -/
def Flag.item (f : Flag σ) (name : String) (attached : Option (List Char)) : Item σ :=
  match f.action, attached with
  | .help, none => .help
  | .help, some value =>
    match f.unused? name value with
    | some rest => .unused f (String.ofList rest)
    | none => .help
  | _, none => .awaiting f
  | _, some value => .given f (String.ofList value)

/-- The text is a minus and a decimal number without exponent. A line feed at its end does not count. -/
def looksNegative (s : List Char) : Bool :=
  match if s.getLast? = some '\n' then s.dropLast else s with
  | '-' :: rest =>
    match rest.dropWhile Text.isDigit with
    | [] => !rest.isEmpty
    | '.' :: places => !places.isEmpty && places.all Text.isDigit
    | _ => false
  | _ => false

namespace Grammar

/-- Every name with its option. -/
def spellings (g : Grammar σ) : List (String × Flag σ) :=
  g.flags.flatMap fun f => f.names.map (·, f)

/-- An argument cut at its first equals sign: a name, and the value attached to it. -/
def cut (argument : String) : String × Option (List Char) :=
  match argument.toList.span (· ≠ '=') with
  | (_, []) => (argument, none)
  | (name, _ :: value) => (String.ofList name, some value)

/-- The options an argument may stand for that is not the name of one, with the value attached to each:
after an equals sign, or directly after a name of one letter. -/
def guesses (g : Grammar σ) (argument : String) : List (String × Flag σ × Option (List Char)) :=
  match argument.toList with
  | '-' :: '-' :: _ =>
    let (start, attached) := cut argument
    g.spellings.filterMap fun (name, f) =>
      if start.toList.isPrefixOf name.toList then some (name, f, attached) else none
  -- What follows a name of one letter is its value. A long name may also begin with one dash.
  | '-' :: c :: rest =>
    g.spellings.filterMap fun (name, f) =>
      if name.toList = ['-', c] then some (name, f, some rest)
      else if argument.toList.isPrefixOf name.toList then some (name, f, none)
      else none
  | _ => []

/-- What an argument is that stands before any `--`. -/
def item (g : Grammar σ) (argument : String) : Except Complaint (Item σ) :=
  match argument.toList with
  | '-' :: _ :: _ =>
    -- As it stands, then up to an equals sign, and then as the start of a name.
    match g.spellings.lookup argument with
    | some f => .ok (f.item argument none)
    | none =>
      let (start, attached) := cut argument
      match g.spellings.lookup start with
      | some f => .ok (f.item start attached)
      | none =>
        match g.guesses argument with
        | [(name, f, attached)] => .ok (f.item name attached)
        | [] =>
          .ok (if looksNegative argument.toList || argument.toList.contains ' ' then .plain else .unknown)
        | several => .error (.ambiguous argument (several.map (·.1)))
  | _ => .ok .plain

/-- The arguments, each with its item. -/
def items (g : Grammar σ) : List String → Except Complaint (List (String × Item σ))
  | [] => .ok []
  | argument :: rest =>
    -- Nothing after it is an option.
    if argument = "--" then .ok ((argument, .separator) :: rest.map (·, .plain))
    else do
      let i ← g.item argument
      let is ← g.items rest
      return (argument, i) :: is

end Grammar

/-! ### Reading -/

/-- What has been read from arguments. -/
structure Reading (σ : Type) where
  settings : σ
  operand : Option String
  /-- What the operand took along. -/
  rest : List String
  surplus : List String
  /-- The operand was read last. -/
  atOperand : Bool

namespace Reading

/-- Nothing has been read. -/
def start (s : σ) : Reading σ := ⟨s, none, [], [], false⟩

/-- The argument fits nowhere. -/
def leave (r : Reading σ) (argument : String) : Reading σ :=
  { r with surplus := r.surplus ++ [argument], atOperand := false }

/-- The option takes a value. -/
def store (r : Reading σ) (f : Flag σ) (value : String) : Except Stop (Reading σ) :=
  (f.store value r.settings).map fun settings => { r with settings, atOperand := false }

end Reading

namespace Grammar

/-- The operand has not been read yet. -/
def wantsOperand (g : Grammar σ) (r : Reading σ) : Bool := g.operand.isSome && r.operand.isNone

/-- Reads items. A separator next to an operand is part of it and does not count, but an operand that
takes the rest begins with the separator before it. -/
def walk (g : Grammar σ) (r : Reading σ) : List (String × Item σ) → Except Stop (Reading σ)
  | [] => .ok r
  | (argument, .unknown) :: items => g.walk (r.leave argument) items
  | (_, .help) :: _ => .error .help
  | (_, .unused f value) :: _ => .error (.complaint (.unusedValue f.shown value))
  | (_, .given f value) :: items => do g.walk (← r.store f value) items
  | (_, .awaiting f) :: (value, .plain) :: items => do g.walk (← r.store f value) items
  | (_, .awaiting f) :: _ => .error (.complaint (.needsValue f.shown))
  | (argument, .plain) :: items =>
    -- The operand is the first plain argument that is the value of no option.
    if g.wantsOperand r then
      if g.takesRest then .ok { r with operand := some argument, rest := items.map (·.1) }
      else g.walk { r with operand := some argument, atOperand := true } items
    else g.walk (r.leave argument) items
  | (argument, .separator) :: items =>
    if g.wantsOperand r then
      if g.takesRest && !items.isEmpty then
        .ok { r with operand := some argument, rest := items.map (·.1) }
      else g.walk r items
    else if r.atOperand then g.walk { r with atOperand := false } items
    else g.walk (r.leave argument) items

/-- Reads arguments. -/
def read (g : Grammar σ) (s : σ) (arguments : List String) : Except Stop (Reading σ) := do
  let items ← (g.items arguments).mapError .complaint
  let r ← g.walk (.start s) items
  match g.operand, r.operand with
  | some name, none => .error (.complaint (.missing name))
  | _, _ => .ok r

end Grammar
end VennDiagram.Command
