import ShareWire.Markup.Error
import ShareWire.Markup.Event

/-!
# Lexemes

One construct is cut off the front of the input at a time. What is cut off and what is left make up
the input, and something is always cut off, so a run over the whole input ends.
-/

namespace ShareWire.Markup

def angleOpen : UInt8 := 0x3C

def angleClose : UInt8 := 0x3E

def ampersand : UInt8 := 0x26

def semicolon : UInt8 := 0x3B

def slash : UInt8 := 0x2F

def exclamation : UInt8 := 0x21

def questionMark : UInt8 := 0x3F

/-- White space inside markup: space, tab, line feed, carriage return. -/
def isTagBlank (b : UInt8) : Bool :=
  b = 0x20 || b = 0x09 || b = 0x0A || b = 0x0D

/-- Splits at the first occurrence of `marker`, which belongs to neither part. -/
def breakOn (marker : Bytes) : Bytes → Option (Bytes × Bytes)
  | [] => if marker = [] then some ([], []) else none
  | b :: rest =>
    if marker.isPrefixOf (b :: rest) then some ([], (b :: rest).drop marker.length)
    else (breakOn marker rest).map fun (before, after) => (b :: before, after)

/-- Splits at the first `>` outside quotation marks; `quote` is the mark that is open at the start. -/
def splitTag (quote : Option Quote) : Bytes → Except MarkupError (Bytes × Bytes)
  | [] =>
    match quote with
    | none => .error .tagNotClosed
    | some q => .error (.attributeNotClosed q)
  | b :: rest =>
    match quote with
    | none =>
      if b = angleClose then .ok ([], rest)
      else (splitTag (Quote.ofByte? b) rest).map fun (body, after) => (b :: body, after)
    | some q =>
      (splitTag (if b = q.byte then none else some q) rest).map fun (body, after) =>
        (b :: body, after)

/-- The name at the start of a tag: everything before the first white space, possibly nothing. -/
def tagName (body : Bytes) : Bytes :=
  body.takeWhile fun b => !isTagBlank b

/-- The name of an end tag: trailing white space does not count, unless there is nothing else. -/
def closeName (body : Bytes) : Bytes :=
  if body.all isTagBlank then body
  else (body.reverse.dropWhile isTagBlank).reverse

/-- The event of a tag that is no end tag, from what stands between its angle brackets. -/
def tagEvent (body : Bytes) : Event :=
  match body.getLast? with
  | some b => if b = slash then .empty (tagName body.dropLast) else .start (tagName body)
  | none => .start []

/-- Where the scan of a document type declaration stands. -/
inductive DoctypeState where
  /-- Before the internal subset, perhaps inside quotation marks. -/
  | outer (quote : Option Quote)
  | subset
  | comment
  /-- Inside a processing instruction of the internal subset. -/
  | instruction
  /-- Inside a declaration whose quotation marks count. -/
  | quoting (quote : Option Quote)
  /-- Inside any other tag of the internal subset. -/
  | skipping
  | tail
deriving DecidableEq, Repr

/-- The state after a `<` of the internal subset, from the bytes that follow it. -/
def DoctypeState.ofSubsetTag (rest : Bytes) : DoctypeState :=
  if [0x3F].isPrefixOf rest then .instruction
  else if [0x21, 0x2D, 0x2D].isPrefixOf rest then .comment
  else if [0x21, 0x45, 0x4E, 0x54, 0x49, 0x54, 0x59].isPrefixOf rest
      || [0x21, 0x41, 0x54, 0x54, 0x4C, 0x49, 0x53, 0x54].isPrefixOf rest
      || [0x21, 0x4E, 0x4F, 0x54, 0x41, 0x54, 0x49, 0x4F, 0x4E].isPrefixOf rest then
    .quoting none
  else .skipping

/-- Splits at the `>` that ends a document type declaration. In the internal subset a comment ends
with `-->` and an instruction with `?>`, each behind the marks that open it; entity, attribute list
and notation declarations end with a `>` outside quotation marks, any other tag with its first `>`.
`skip` counts bytes that were already looked at and take no part. -/
def splitDoctype (state : DoctypeState) (skip : Nat) : Bytes → Option (Bytes × Bytes)
  | [] => none
  | b :: rest =>
    let onward (state : DoctypeState) (skip : Nat) : Option (Bytes × Bytes) :=
      (splitDoctype state skip rest).map fun (body, after) => (b :: body, after)
    match skip with
    | skip + 1 => onward state skip
    | 0 =>
      match state with
      | .outer none =>
        if b = angleClose then some ([], rest)
        else if b = 0x5B then onward .subset 0
        else onward (.outer (Quote.ofByte? b)) 0
      | .outer (some q) => onward (.outer (if b = q.byte then none else some q)) 0
      | .subset =>
        if b = 0x5D then onward .tail 0
        else if b = angleOpen then
          match DoctypeState.ofSubsetTag rest with
          | .comment => onward .comment 3
          | .instruction => onward .instruction 1
          | state => onward state 0
        else onward .subset 0
      | .comment =>
        if [0x2D, 0x2D, 0x3E].isPrefixOf (b :: rest) then onward .subset 2 else onward .comment 0
      | .instruction =>
        if [0x3F, 0x3E].isPrefixOf (b :: rest) then onward .subset 1 else onward .instruction 0
      | .quoting none =>
        if b = angleClose then onward .subset 0 else onward (.quoting (Quote.ofByte? b)) 0
      | .quoting (some q) => onward (.quoting (if b = q.byte then none else some q)) 0
      | .skipping => if b = angleClose then onward .subset 0 else onward .skipping 0
      | .tail => if b = angleClose then some ([], rest) else onward .tail 0

def upperByte (b : UInt8) : UInt8 :=
  if 0x61 ≤ b && b ≤ 0x7A then b - 32 else b

def doctypeWord : Bytes := [0x44, 0x4F, 0x43, 0x54, 0x59, 0x50, 0x45]

def cdataWord : Bytes := [0x5B, 0x43, 0x44, 0x41, 0x54, 0x41, 0x5B]

def xmlWord : Bytes := [0x78, 0x6D, 0x6C]

/-- Reads a document type declaration from what follows `<!`. -/
def readDoctype (rest : Bytes) : Except MarkupError (Event × Bytes) :=
  if (rest.take doctypeWord.length).map upperByte = doctypeWord then
    match splitDoctype (.outer none) 0 (rest.drop doctypeWord.length) with
    | none => .error .doctypeNotClosed
    | some (body, after) =>
      if body.all isTagBlank then .error .doctypeWithoutName else .ok (.doctype, after)
  else .error .doctypeNotClosed

/-- Reads a comment from what follows `<!`. -/
def readComment (rest : Bytes) : Except MarkupError (Event × Bytes) :=
  if [0x2D, 0x2D].isPrefixOf rest then
    match breakOn [0x2D, 0x2D, 0x3E] (rest.drop 2) with
    | none => .error .commentNotClosed
    | some (_, after) => .ok (.comment, after)
  else .error .commentNotClosed

/-- Reads a character data section from what follows `<!`. -/
def readCdata (rest : Bytes) : Except MarkupError (Event × Bytes) :=
  if cdataWord.isPrefixOf rest then
    match breakOn [0x5D, 0x5D, 0x3E] (rest.drop cdataWord.length) with
    | none => .error .cdataNotClosed
    | some (content, after) => .ok (.cdata content, after)
  else .error .cdataNotClosed

/-- Reads the construct that `<!` begins, from what follows. -/
def readDeclaration (rest : Bytes) : Except MarkupError (Event × Bytes) :=
  match rest with
  | [] => .error .unknownMarkup
  | b :: _ =>
    if b = 0x2D then readComment rest
    else if b = 0x5B then readCdata rest
    else if b = 0x44 || b = 0x64 then readDoctype rest
    else .error .unknownMarkup

/-- Whether an unfinished instruction was going to be an XML declaration: `xml` ends it, or stands
before white space or a question mark. -/
def startsXml (rest : Bytes) : Bool :=
  xmlWord.isPrefixOf rest &&
    match rest.drop xmlWord.length with
    | [] => true
    | b :: _ => isTagBlank b || b = questionMark

/-- Whether the body of an instruction makes it an XML declaration. -/
def isXmlDeclaration (body : Bytes) : Bool :=
  xmlWord.isPrefixOf body &&
    match body.drop xmlWord.length with
    | [] => true
    | b :: _ => isTagBlank b

/-- Reads an instruction or XML declaration from what follows `<?`. It has an end of its own: a `>`
at once does not close it. -/
def readInstruction (rest : Bytes) : Except MarkupError (Event × Bytes) :=
  if [angleClose].isPrefixOf rest then .error .instructionNotClosed
  else
    match breakOn [0x3F, 0x3E] rest with
    | none => .error (if startsXml rest then .declarationNotClosed else .instructionNotClosed)
    | some (body, after) =>
      .ok (if isXmlDeclaration body then .declaration else .instruction, after)

def readMarkup (rest : Bytes) : Except MarkupError (Event × Bytes) :=
  match rest with
  | [] => .error .tagNotClosed
  | b :: inner =>
    if b = slash then (splitTag none inner).map fun (body, after) => (.close (closeName body), after)
    else if b = exclamation then readDeclaration inner
    else if b = questionMark then readInstruction inner
    else (splitTag none rest).map fun (body, after) => (tagEvent body, after)

def endsText (b : UInt8) : Bool :=
  b = angleOpen || b = ampersand

/-- Reads a reference from what follows `&`: its semicolon comes before any `&` or `<`. -/
def readReference (rest : Bytes) : Except MarkupError (Event × Bytes) :=
  let stops (b : UInt8) : Bool := endsText b || b = semicolon
  match rest.dropWhile fun b => !stops b with
  | [] => .error .referenceNotClosed
  | b :: after =>
    if b = semicolon then .ok (.reference (rest.takeWhile fun b => !stops b), after)
    else .error .referenceNotClosed

/-- Reads one construct from a nonempty input `b :: rest`. -/
def readEvent (b : UInt8) (rest : Bytes) : Except MarkupError (Event × Bytes) :=
  if b = angleOpen then readMarkup rest
  else if b = ampersand then readReference rest
  else
    .ok (.text (b :: rest.takeWhile fun c => !endsText c), rest.dropWhile fun c => !endsText c)

end ShareWire.Markup
