import ApiDocs.Syntax.Parser.Expressions

set_option autoImplicit false

/-!
JSX elements. All of them have the same type, so the parser only checks that they are well formed.
-/

namespace ApiDocs.Syntax.Parser

open Parse

variable (rules : Rules)

def isElementNameChar (c : Char) : Bool := Text.isIdentPart c || c == '-'

/-- A name of an element or attribute, which may hold dashes. -/
def elementWord : Parse String := do
  match ← kind with
  | .name _ =>
      let text := (← read).text
      let start ← startHere
      let stop := Lexer.skipWhile text isElementNameChar start
      moveTo stop .closing
      return Lexer.sliceText text start stop
  | _ => fail

/-- A name with a namespace or with members. -/
def elementName : Parse String := do
  let first ← elementWord
  if ← eat ":" then return first ++ ":" ++ (← elementWord)
  else
    extend (fun name => do
      if ← eat "." then return some (name ++ "." ++ (← elementWord)) else return none) first

/-- A string of an attribute has no escapes and may span lines. -/
def attributeString (quote : Char) : Parse Unit := do
  let text := (← read).text
  let stop := Lexer.skipWhile text (· ≠ quote) ((← startHere) + 1)
  if stop < text.size then moveTo (stop + 1) .closing else fail

def attributeValue : Parse Unit := do
  let start ← startHere
  match (← read).text.char? start with
  | some '"' => attributeString '"'
  | some '\x27' => attributeString '\x27'
  | _ =>
      if ← eat "\x7b" then
        let _ ← rules.call (.assignment {})
        expect "\x7d"
      else rules.call .element

def elementAttribute : Parse Unit := do
  if ← eat "\x7b" then
    expect "..."
    let _ ← rules.call (.assignment {})
    expect "\x7d"
  else
    let _ ← elementWord
    if ← eat ":" then
      let _ ← elementWord
    if ← eat "=" then attributeValue rules

/-- The text between tags ends at a brace or an angle bracket. -/
def isElementText (c : Char) : Bool := c ≠ '\x7b' && c ≠ '<'

/-- What stands in braces between tags: an expression, a spread or nothing. -/
def elementBraces : Parse Nat := do
  let _ ← eat "..."
  unless ← at_ "\x7d" do
    let _ ← rules.call (.expression false)
  unless ← at_ "\x7d" do fail
  return (← view).stop

/-- The children from a place on, up to the closing tag: the place behind its `</`. -/
def elementChildren : Nat → Nat → Parse Nat
  | 0, _ => fail
  | n + 1, place => do
      let text := (← read).text
      let stop := Lexer.skipWhile text isElementText place
      if text.char? stop = some '\x7b' then
        moveTo (stop + 1) .closing
        elementChildren n (← elementBraces rules)
      else if text.char? stop = some '<' then
        moveTo (stop + 1) .opening
        if ← at_ "/" then return (← view).stop
        else
          moveTo stop .opening
          rules.call .element
          elementChildren n (← get).stop
      else fail

/-- An element or fragment. The closing tag repeats the name of the opening one. -/
def element : Parse Unit := do
  let size := (← read).text.size
  expect "<"
  let close (name : Option String) : Parse Unit := do
    unless ← at_ ">" do fail
    let place ← elementChildren rules (size + 2) (← view).stop
    moveTo place .opening
    let closing ← if ← at_ ">" then pure none else some <$> elementName
    if closing = name then expect ">" else fail
  if ← at_ ">" then close none
  else
    let name ← elementName
    let _ ← if (← typed) && (← atAngle) then typeArgs rules else pure []
    extend (fun _ => do
      if (← at_ ">") || (← at_ "/") then return none
      else
        elementAttribute rules
        return some ()) ()
    if ← eat "/" then expect ">" else close (some name)

end ApiDocs.Syntax.Parser
