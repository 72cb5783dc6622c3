import ScriptAudit.Source.Expression

/-! Statements and declarations. -/

namespace ScriptAudit.Source

open Syntax ScriptAudit.Source.Parser

namespace Rules

def statements (r : Rules) : Parser Unit :=
  repeatWhile do
    unless r.dialect.types do modify fun c => c.past (c.gap true)
    let g ← ahead
    if g.rest.isEmpty || g.rest.head? == some '}' then return false
    else if (← isWord "case") || (← isWord "default") then return false
    else
      r.statement
      return true

def blockRule (r : Rules) : Parser Unit := node "statement_block" do
  expectMark "\x7b"
  r.statements
  closeBrace

def expressionStatement (r : Rules) : Parser Unit := node "expression_statement" do
  r.sequence .statement
  semicolon r.dialect false

/-! Variables -/

/-- A variable after its name; tells whether it has a value. -/
def declaratorRest (r : Rules) (s : Start) (c : Context) : Parser Bool := do
  setRole .name
  if r.dialect.types then discard (takeMark? "!")
  r.optionalAnnotation
  let valued ← isMark "="
  if valued then r.initializer c
  finish s .variableDeclarator
  return valued

/-- Further variables after the first; tells whether the last one has a value. -/
def moreDeclarators (r : Rules) (c : Context) : Nat → Bool → Parser Bool
  | 0, valued => return valued
  | fuel + 1, valued => do
    if ← takeMark? "," then
      let s ← begin
      r.pattern
      moreDeclarators r c fuel (← r.declaratorRest s c)
    else return valued

def declarators (r : Rules) (c : Context) : Parser Bool := do
  let s ← begin
  r.pattern
  let valued ← r.declaratorRest s c
  r.moreDeclarators c (← get).rest.length valued

def variableStatement (r : Rules) : Parser Unit := do
  let s ← begin
  let w ← takeWord
  let valued ← r.declarators .statement
  semicolon r.dialect (r.dialect.types && !valued)
  finish s (.other (if w == "var" then "variable_declaration" else "lexical_declaration"))

/-- Whether `let` begins a declaration rather than being a name. -/
def isLetDeclaration (d : Dialect) : Parser Bool := afterWord do
  let g ← ahead
  let c := g.rest.head?
  let names := match Source.word? g.rest with
    | some (w, _) => w != "in" && w != "instanceof" && w != "of"
    | none => c == some '[' || c == some '{'
  return names && !(g.newline && !continues d.types false g.rest)

/-- Whether a declaration of resources begins here, which only plain scripts have. -/
def isUsing (d : Dialect) : Parser Bool := do
  let uses : Parser Bool := isWord "using" <&&> afterWord (do
    let some w ← peekWord? | return false
    return !(← ahead).newline && !isReserved w && w != "of")
  return !d.types && ((← uses) || (← isWord "await" <&&> afterWord uses))

def usingStatement (r : Rules) : Parser Unit := node "using_declaration" do
  discard (takeWord? "await")
  expectWord "using"
  discard (r.declarators .statement)
  semicolon r.dialect false

/-! Functions and classes -/

def isNamedFunction (d : Dialect) : Parser Bool := do
  let named : Parser Bool := do
    if ← isWord "function" then
      afterWord do
        discard (takeMark? "*")
        atWord
    else return false
  if ← isWord "async" then
    afterWord do if ← lineEnds d .statement then return false else named
  else named

def functionStatement (r : Rules) : Parser Unit := do
  let s ← begin
  let (_, generator) ← r.functionHead
  if r.dialect.types && !(← isMark "\x7b") then
    semicolon r.dialect true
    finish s (.other "function_signature")
  else
    r.body
    finish s (if generator then .generatorFunctionDeclaration else .functionDeclaration)

/-- A class as a statement. One without a name is an expression. -/
def classStatement (r : Rules) (needsEnd : Bool) : Parser Unit := do
  let s ← begin
  r.decorators
  let abstracted ← if r.dialect.types then takeWord? "abstract" else pure false
  let named ← r.classTail
  finish s (if abstracted then .abstractClassDeclaration
    else if named then .classDeclaration
    else .classExpression)
  if !named && needsEnd then semicolon r.dialect false

/-! Branches and loops -/

def ifStatement (r : Rules) : Parser Unit := node "if_statement" do
  expectWord "if"
  r.parenthesized
  r.statement
  if ← takeWord? "else" then r.statement

def whileStatement (r : Rules) : Parser Unit := node "while_statement" do
  expectWord "while"
  r.parenthesized
  r.statement

def doStatement (r : Rules) : Parser Unit := node "do_statement" do
  expectWord "do"
  r.statement
  expectWord "while"
  r.parenthesized
  discard (takeMark? ";")

def withStatement (r : Rules) : Parser Unit := node "with_statement" do
  expectWord "with"
  r.parenthesized
  r.statement

def loopOver (r : Rules) (s : Start) : Parser Unit := do
  setRole .left
  discard takeWord
  inRole .right (r.sequence .inner)
  close ")"
  inRole .body r.statement
  finish s .forInStatement

def loopRest (r : Rules) (s : Start) : Parser Unit := do
  expectMark ";"
  unless ← isMark ";" do r.sequence .inner
  expectMark ";"
  unless ← isMark ")" do r.sequence .inner
  close ")"
  inRole .body r.statement
  finish s (.other "for_statement")

def isLoopWord : Parser Bool := do return (← isWord "of") || (← isWord "in")

def forStatement (r : Rules) : Parser Unit := do
  let s ← begin
  expectWord "for"
  if ← isWord "await" then keyword .await
  expectMark "("
  let heads : Context := { Context.inner with noIn := true }
  let declares ← isWord "var" <||> isWord "const" <||>
    (isWord "let" <&&> isLetDeclaration r.dialect) <||>
    (isWord "using" <&&> isUsing r.dialect)
  if ← isMark ";" then r.loopRest s
  else if declares then
    let t ← begin
    let w ← takeWord
    let u ← begin
    r.pattern
    if ← isLoopWord then r.loopOver s
    else
      discard (r.declaratorRest u heads)
      if ← isLoopWord then r.loopOver s
      else
        discard (r.moreDeclarators heads (← get).rest.length true)
        finish t (.other (if w == "var" then "variable_declaration" else "lexical_declaration"))
        r.loopRest s
  else
    r.sequence heads
    if ← isLoopWord then
      replaceNewest asTarget
      r.loopOver s
    else r.loopRest s

def switchStatement (r : Rules) : Parser Unit := node "switch_statement" do
  expectWord "switch"
  r.parenthesized
  node "switch_body" do
    expectMark "\x7b"
    repeatWhile do
      if ← isWord "case" then
        node "switch_case" do
          expectWord "case"
          r.sequence .inner
          expectMark ":"
          r.statements
        return true
      else if ← isWord "default" then
        node "switch_default" do
          expectWord "default"
          expectMark ":"
          r.statements
        return true
      else return false
    closeBrace

def tryStatement (r : Rules) : Parser Unit := node "try_statement" do
  expectWord "try"
  r.body
  if ← isWord "catch" then
    node "catch_clause" do
      expectWord "catch"
      if ← takeMark? "(" then
        r.pattern
        r.optionalAnnotation
        close ")"
      r.body
  if ← isWord "finally" then
    node "finally_clause" do
      expectWord "finally"
      r.body

/-! Jumps -/

/-- A jump, with the label or the value that follows it on its line. -/
def jump (r : Rules) (kind : String) (target : Parser Unit) : Parser Unit := node kind do
  discard takeWord
  unless ← endsAtComment do
    unless (← isMark ";") || (← endsHere r.dialect.types r.dialect.types) do target
    semicolon r.dialect false

def throwStatement (r : Rules) : Parser Unit := node "throw_statement" do
  expectWord "throw"
  r.sequence .statement
  semicolon r.dialect false

def labelledStatement (r : Rules) : Parser Unit := node "labeled_statement" do
  wordLeaf (.other "statement_identifier")
  expectMark ":"
  r.statement

/-! Modules -/

/-- A name of something that a module shares: a word or a string. -/
def sharedName : Parser Unit := do
  if (← isMark "\"") || (← isMark "'") then string else discard takeWord

def specifier (r : Rules) : Parser Unit := node "specifier" do
  let marked ← isWord "type" <&&> afterWord (do
    return ((← atWord) && !(← isWord "as")) || (← isMark "\"") || (← isMark "'"))
  if r.dialect.types && marked then discard takeWord
  sharedName
  if ← takeWord? "as" then sharedName

def specifiers (r : Rules) : Parser Unit := node "specifiers" do
  expectMark "\x7b"
  listUpTo '}' r.specifier

def fromClause : Parser Unit := do
  expectWord "from"
  unless (← isMark "\"") || (← isMark "'") do unexpected
  string

def attributes (r : Rules) : Parser Unit := do
  if (← isWord "with") || (← isWord "assert" <&&> afterWord (isMark "\x7b")) then
    discard takeWord
    r.object

def namespaceImport : Parser Unit := do
  expectMark "*"
  expectWord "as"
  identifier

def importClause (r : Rules) : Parser Unit := node "import_clause" do
  if ← isMark "*" then namespaceImport
  else if ← isMark "\x7b" then r.specifiers
  else
    identifier
    if ← takeMark? "," then
      if ← isMark "*" then namespaceImport else r.specifiers

/-- A name given to a module or to a part of one. -/
def importAlias (r : Rules) : Parser Unit := do
  identifier
  expectMark "="
  if ← isWord "require" <&&> afterWord (isMark "(") then
    discard takeWord
    expectMark "("
    string
    close ")"
  else r.qualified identifier
  semicolon r.dialect false

def importStatement (r : Rules) : Parser Unit := node "import_statement" do
  expectWord "import"
  if (← isMark "\"") || (← isMark "'") then
    string
    r.attributes
    semicolon r.dialect false
  else
    let typeOnly ← pure r.dialect.types <&&> isWord "type" <&&> afterWord (do
      return (← isMark "\x7b") || (← isMark "*") ||
        ((← atWord) && (!(← isWord "from") || (← afterWord (isWord "from")))))
    if typeOnly then discard takeWord
    let aliased ← pure r.dialect.types <&&> atWord <&&> afterWord (isMark "=")
    if aliased then r.importAlias
    else
      r.importClause
      fromClause
      r.attributes
      semicolon r.dialect false

/-! Declarations of annotated sources -/

def typeName : Parser Unit := do
  match ← peekWord? with
  | some w => if isReserved w then unexpected else wordLeaf (.other "type_identifier")
  | none => unexpected

def interfaceDeclaration (r : Rules) : Parser Unit := node "interface_declaration" do
  expectWord "interface"
  typeName
  r.optionalTypeParameters
  if ← takeWord? "extends" then
    repeatWhile do
      r.type
      takeMark? ","
  r.typeMembers

def typeAlias (r : Rules) : Parser Unit := node "type_alias_declaration" do
  expectWord "type"
  typeName
  r.optionalTypeParameters
  expectMark "="
  r.type
  semicolon r.dialect true

def enumDeclaration (r : Rules) : Parser Unit := node "enum_declaration" do
  discard (takeWord? "const")
  expectWord "enum"
  identifier
  expectMark "\x7b"
  listUpTo '}' (node "enum_member" do
    r.propertyName
    if ← isMark "=" then r.initializer .inner)

def namespaceDeclaration (r : Rules) : Parser Unit := node "module" do
  discard takeWord
  if (← isMark "\"") || (← isMark "'") then string else r.qualified identifier
  if ← isMark "\x7b" then r.body else semicolon r.dialect true

def ambientDeclaration (r : Rules) : Parser Unit := node "ambient_declaration" do
  expectWord "declare"
  if ← isWord "global" <&&> afterWord (isMark "\x7b") then
    discard takeWord
    r.body
  else r.statement

def namesNext (strings : Bool) : Parser Bool := afterWord do
  let g ← ahead
  return !g.newline && ((← atWord) || (strings && ((← isMark "\"") || (← isMark "'"))))

/-- A declaration that only annotated sources have; tells whether there was one. -/
def annotatedDeclaration? (r : Rules) (w : String) : Parser Bool := do
  if !r.dialect.types then return false
  match w with
  | "interface" => if ← namesNext false then r.interfaceDeclaration; return true else return false
  | "type" => if ← namesNext false then r.typeAlias; return true else return false
  | "enum" => if ← namesNext false then r.enumDeclaration; return true else return false
  | "const" =>
    if ← afterWord (isWord "enum") then r.enumDeclaration; return true else return false
  | "namespace" | "module" =>
    if ← namesNext true then r.namespaceDeclaration; return true else return false
  | "declare" => if ← namesNext false then r.ambientDeclaration; return true else return false
  | "abstract" =>
    if ← afterWord (isWord "class") then r.classStatement true; return true else return false
  | _ => return false

/-! Exports -/

def exportDefault (r : Rules) : Parser Unit := do
  expectWord "default"
  let isClass ← isMark "@" <||> isWord "class" <||>
    (pure r.dialect.types <&&> isWord "abstract" <&&> afterWord (isWord "class"))
  if ← isNamedFunction r.dialect then r.functionStatement
  else if isClass then r.classStatement true
  else if ← pure r.dialect.types <&&> isWord "interface" <&&> namesNext false then
    r.interfaceDeclaration
  else
    r.expression .statement
    semicolon r.dialect false

def isDeclaration (r : Rules) : Parser Bool := do
  if ← isMark "@" then return true
  let some w ← peekWord? | return false
  return ["var", "let", "const", "class", "function", "async"].contains w ||
    (r.dialect.types && ["interface", "type", "enum", "namespace", "module", "declare",
      "abstract"].contains w)

def exportStatement (r : Rules) : Parser Unit := node "export_statement" do
  r.decorators
  expectWord "export"
  if ← isWord "default" then r.exportDefault
  else if ← takeMark? "*" then
    if ← takeWord? "as" then sharedName
    fromClause
    r.attributes
    semicolon r.dialect false
  else if ← isMark "\x7b" then
    r.specifiers
    if ← isWord "from" then
      fromClause
      r.attributes
    semicolon r.dialect false
  else if ← pure r.dialect.types <&&> takeMark? "=" then
    r.expression .statement
    semicolon r.dialect false
  else if ← pure r.dialect.types <&&> isWord "as" then
    expectWord "as"
    expectWord "namespace"
    identifier
    semicolon r.dialect false
  else if ← pure r.dialect.types <&&> isWord "type" <&&>
      afterWord (isMark "\x7b" <||> isMark "*") then
    discard takeWord
    if ← takeMark? "*" then
      if ← takeWord? "as" then sharedName
    else r.specifiers
    if ← isWord "from" then fromClause
    semicolon r.dialect false
  else if ← pure r.dialect.types <&&> isWord "import" then
    discard takeWord
    discard (isWord "type" <&&> namesNext false <&&> takeWord? "type")
    r.importAlias
  else if ← r.isDeclaration then r.statement
  else unexpected

/-! All statements -/

/-- Something in braces at the beginning of a statement. -/
def bracedStatement (r : Rules) : Parser Unit := do
  unless ← r.isKeyed <&&> succeeds r.expressionStatement do r.block

def isLabel : Parser Bool := do
  let some w ← peekWord? | return false
  return !isReserved w && (← afterWord (isMark ":"))

def wordStatement (r : Rules) (w : String) : Parser Unit := do
  if ← r.annotatedDeclaration? w then return
  if ← isLabel then r.labelledStatement
  else if ← isNamedFunction r.dialect then r.functionStatement
  else
    match w with
    | "var" | "const" => r.variableStatement
    | "let" => if ← isLetDeclaration r.dialect then r.variableStatement else r.expressionStatement
    | "using" | "await" =>
      if ← isUsing r.dialect then r.usingStatement else r.expressionStatement
    | "class" => r.classStatement true
    | "if" => r.ifStatement
    | "for" => r.forStatement
    | "while" => r.whileStatement
    | "do" => r.doStatement
    | "switch" => r.switchStatement
    | "try" => r.tryStatement
    | "with" => r.withStatement
    | "return" => r.jump "return_statement" (r.sequence .statement)
    | "break" => r.jump "break_statement" identifier
    | "continue" => r.jump "continue_statement" identifier
    | "throw" => r.throwStatement
    | "debugger" => r.jump "debugger_statement" unexpected
    | "export" => r.exportStatement
    | "import" =>
      if ← afterWord (isMark "(" <||> isMark ".") then r.expressionStatement
      else r.importStatement
    | _ => r.expressionStatement

/-- What decorators stand before: a class, or something that is exported. -/
def decoratedStatement (r : Rules) : Parser Unit := do
  let exported : Parser Unit := do
    r.decorators
    unless ← isWord "export" do unexpected
  let isExported : Parser Bool := fun c =>
    match exported c with
    | .ok _ => .ok (true, c)
    | .error _ => .ok (false, c)
  if ← isExported then r.exportStatement else r.classStatement true

def statementRule (r : Rules) : Parser Unit := do
  match ← peekChar? with
  | some '{' => r.bracedStatement
  | some ';' => node "empty_statement" (expectMark ";")
  | some '@' => r.decoratedStatement
  | _ =>
    match ← peekWord? with
    | some w => r.wordStatement w
    | none => r.expressionStatement

end Rules

end ScriptAudit.Source
