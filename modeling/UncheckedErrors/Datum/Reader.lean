import UncheckedErrors.Datum.Basic

/-!
# Reading data

`Datum.parse` reads a text that holds exactly one datum. The text is cut into tokens by a machine
that takes one character at a time; a mistake inside a token ends the tokens. A stack of open
lists and apostrophes then takes the tokens one by one, so of several mistakes the leftmost one is
reported.

* Blanks are the six ASCII ones, and a semicolon starts a comment that ends with its line.
* In a string a backslash gives `\`, `"` and the control characters `b`, `f`, `n`, `r` and `t`; in
  an atom it gives a character that would end the atom or mean something in it. Before any other
  character the backslash is kept.
* An atom is an integer if it writes one, else a number if it writes one, else a symbol.
-/

namespace UncheckedErrors

namespace Datum

/-- Why a text is not a datum. -/
inductive ParseError where
  /-- The text holds no datum, or several. -/
  | notOne
  /-- A list that `expected` would close met another closing bracket, or the end. -/
  | unclosed (expected : Char) (found : Option Char)
  /-- A closing bracket that closes nothing; `rest` is the text from it on. -/
  | unopened (rest : String)
  /-- Nothing follows the apostrophe at this position. -/
  | danglingQuote (position : Nat)
  | unterminatedString
  /-- A backslash is the last character. -/
  | danglingEscape
  /-- The text is nested beyond `depthLimit`. -/
  | tooDeep
  deriving DecidableEq, Repr

/-- The text of a mistake; a text nested too deeply has none. -/
def ParseError.text? : ParseError → Option String
  | .notOne => some ""
  | .unclosed expected found => some (
      "Not enough closing brackets. Expected " ++ Text.quoted expected.toString ++
      " to be the last letter in the sexp. Got: " ++
      match found with
      | some c => Text.quoted c.toString
      | none => "None")
  | .unopened rest => some (
      "Too many closing brackets. Expected no character left in the sexp. Got: " ++
      Text.quoted rest)
  | .danglingQuote position => some (
      "No s-exp is found after an apostrophe at position " ++ toString position)
  | .unterminatedString => some "'NoneType' object has no attribute 'start'"
  | .danglingEscape => some "string index out of range"
  | .tooDeep => none

/-- The two kinds of lists. -/
inductive Bracket where
  | round
  | square
  deriving DecidableEq, Repr

/-- The character that closes a list. -/
def Bracket.closing : Bracket → Char
  | .round => ')'
  | .square => ']'

/-- A token of a dump. -/
inductive Token where
  | opening (bracket : Bracket)
  /-- A closing bracket and the text from it on. -/
  | closing (bracket : Bracket) (rest : List Char)
  | apostrophe (position : Nat)
  | datum (d : Datum)
  /-- A mistake; nothing comes after it. -/
  | bad (error : ParseError)

/-- The datum that an atom writes. -/
def ofAtom (cs : List Char) : Datum :=
  match Number.readInt? cs with
  | some n => .int n
  | none =>
    match Number.Binary64.read? cs with
    | some x => .real x
    | none => .symbol (String.ofList cs)

/-- What the lexer is inside of. The characters of a string or an atom are held last first. -/
inductive Mode where
  | between
  | comment
  | string (text : List Char)
  | stringEscape (text : List Char)
  | atom (text : List Char)
  | atomEscape (text : List Char)

/-- The blanks between data. -/
def isSeparator (c : Char) : Bool :=
  c == ' ' || (9 ≤ c.toNat && c.toNat ≤ 13)

/-- The characters that end an atom. -/
def endsAtom (c : Char) : Bool :=
  isSeparator c || ['(', ')', '[', ']', '"', ';'].contains c

/-- What a backslash and `c` give inside a string, last character first. -/
def stringEscape (c : Char) : List Char :=
  if c == '\\' || c == '"' then [c]
  else if c == 'b' then [Char.ofNat 8]
  else if c == 'f' then [Char.ofNat 12]
  else if c == 'n' then ['\n']
  else if c == 'r' then ['\r']
  else if c == 't' then ['\t']
  else [c, '\\']

/-- What a backslash and `c` give inside an atom, last character first. -/
def atomEscape (c : Char) : List Char :=
  if ['\\', '\'', Char.ofNat 96, '"', '(', ')', '[', ']', ' ', ',', '?', ';', '#'].contains c then
    [c]
  else [c, '\\']

/-- Takes the character `c` at `position` between two data; `rest` follows it. -/
def begin (position : Nat) (c : Char) (rest : List Char) : Option Token × Mode :=
  if isSeparator c then (none, .between)
  else if c == ';' then (none, .comment)
  else if c == '(' then (some (.opening .round), .between)
  else if c == '[' then (some (.opening .square), .between)
  else if c == ')' then (some (.closing .round (c :: rest)), .between)
  else if c == ']' then (some (.closing .square (c :: rest)), .between)
  else if c == '\'' then (some (.apostrophe position), .between)
  else if c == '"' then (none, .string [])
  else if c == '\\' then (none, .atomEscape [])
  else (none, .atom [c])

/-- The last token, when the text ends inside `mode`. -/
def Mode.finish : Mode → Option Token
  | .between => none
  | .comment => none
  | .string _ => some (.bad .unterminatedString)
  | .stringEscape _ => some (.bad .danglingEscape)
  | .atom text => some (.datum (ofAtom text.reverse))
  | .atomEscape _ => some (.bad .danglingEscape)

/-- The tokens of the text from `position` on, in front of which stand the tokens `done`, last
first. -/
def lexFrom (done : List Token) (mode : Mode) (position : Nat) : List Char → List Token
  | [] => (mode.finish.toList ++ done).reverse
  | c :: rest =>
    match mode with
    | .between =>
      let (token, mode) := begin position c rest
      lexFrom (token.toList ++ done) mode (position + 1) rest
    | .comment => lexFrom done (if c == '\n' then .between else .comment) (position + 1) rest
    | .string text =>
      if c == '"' then
        lexFrom (.datum (.string (String.ofList text.reverse)) :: done) .between (position + 1) rest
      else if c == '\\' then lexFrom done (.stringEscape text) (position + 1) rest
      else lexFrom done (.string (c :: text)) (position + 1) rest
    | .stringEscape text => lexFrom done (.string (stringEscape c ++ text)) (position + 1) rest
    | .atom text =>
      if endsAtom c then
        let (token, mode) := begin position c rest
        lexFrom (token.toList ++ .datum (ofAtom text.reverse) :: done) mode (position + 1) rest
      else if c == '\\' then lexFrom done (.atomEscape text) (position + 1) rest
      else lexFrom done (.atom (c :: text)) (position + 1) rest
    | .atomEscape text => lexFrom done (.atom (atomEscape c ++ text)) (position + 1) rest

/-- The tokens of a text. -/
def lex (cs : List Char) : List Token :=
  lexFrom [] .between 0 cs

/-- Something open: a list with the data read so far, last first, and the depth outside of it, or
an apostrophe that waits for its datum. -/
inductive Frame where
  | list (bracket : Bracket) (outside : Nat) (items : List Datum)
  | quote (position : Nat)

/-- Data may be nested this deep: a stack has room for a thousand open calls, each level takes one,
and the rest are those that lead to the reader of data and those that read an atom. A list counts up
to its end, and an apostrophe up to the end of the list it stands in. -/
def depthLimit : Nat := 985

/-- The complete data at top level, last first, what is open, innermost first, and the depth. -/
structure Stack where
  top : List Datum
  frames : List Frame
  depth : Nat

/-- Puts a complete datum in its place: behind the open apostrophes, then into the innermost list
or at top level. -/
def Stack.push (depth : Nat) (top : List Datum) (d : Datum) : List Frame → Stack
  | [] => ⟨d :: top, [], depth⟩
  | .list bracket outside items :: frames =>
    ⟨top, .list bracket outside (d :: items) :: frames, depth⟩
  | .quote _ :: frames => push depth top (.quoted d) frames

/-- Goes one level deeper, into what `frame` opens. -/
def Stack.enter (stack : Stack) (frame : Frame) : Except ParseError Stack :=
  if depthLimit ≤ stack.depth then throw .tooDeep
  else return ⟨stack.top, frame :: stack.frames, stack.depth + 1⟩

/-- The list that a frame becomes when it is closed. -/
def Bracket.close (items : List Datum) : Bracket → Datum
  | .round => .list items.reverse
  | .square => .brackets items.reverse

/-- Takes one token. -/
def Stack.take (stack : Stack) : Token → Except ParseError Stack
  | .opening bracket => stack.enter (.list bracket stack.depth [])
  | .apostrophe position => stack.enter (.quote position)
  | .datum d => return .push stack.depth stack.top d stack.frames
  | .bad error => throw error
  | .closing bracket rest =>
    match stack.frames with
    | [] => throw (.unopened (String.ofList rest))
    | .quote position :: _ => throw (.danglingQuote position)
    | .list expected outside items :: frames =>
      if expected == bracket then return .push outside stack.top (bracket.close items) frames
      else throw (.unclosed expected.closing (some bracket.closing))

/-- The datum that a stack holds when the text has ended. -/
def Stack.finish (stack : Stack) : Except ParseError Datum :=
  match stack.frames, stack.top with
  | .quote position :: _, _ => throw (.danglingQuote position)
  | .list expected _ _ :: _, _ => throw (.unclosed expected.closing none)
  | [], [d] => return d
  | [], _ => throw .notOne

/-- The datum that a text holds. -/
def parse (s : String) : Except ParseError Datum := do
  (← (lex s.toList).foldlM Stack.take ⟨[], [], 0⟩).finish

/-- A text is parsed by its characters. Those of a literal need not be computed
(`String.toList_ofList`). -/
theorem parse_of_toList {s : String} {cs : List Char} (hs : s.toList = cs) {d : Datum}
    (h : ((lex cs).foldlM Stack.take ⟨[], [], 0⟩ >>= Stack.finish) = .ok d) :
    parse s = .ok d := by
  rw [parse, hs]
  exact h

end Datum

end UncheckedErrors
