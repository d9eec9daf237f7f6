import Polarity.Declaration
import Polarity.Diagnostic
import Polarity.Token

/-!
# Reading declarations

The grammar, over the tokens of a source other than white space:

    Program   := Class*
    Class     := "class" Identifier "<" Identifier ("," Identifier)* ">" "{" Method* "}"
    Method    := Type Identifier "(" Type* ")" ";"
    Type      := Identifier ("<" TypeArg ("," TypeArg)* ">")?
    TypeArg   := "?" ("extends" | "super") Type | Type

where the words in quotes are ordinary identifiers everywhere else, and the
parameters of one class have different names.

Declarations are read by a machine that takes one token at a time. Its state says
what has been read of the declaration at hand: the `Stage`, with the applications
of types that are still open on a stack. A token that cannot follow is refused
at once, and the machine never looks back.

* `Reader.step`: takes one token;
* `Reader.finish`: the end of the input;
* `parse`: the declarations of a source, or the first thing wrong with it.
-/

namespace Polarity

/-- A type application whose arguments are being read. -/
structure OpenType where
  name : Text
  /-- The place of the name. -/
  span : Span
  /-- The arguments read so far. -/
  args : List TypeArg
  /-- The wildcard of the argument at hand. -/
  wildcard : Wildcard

/-- A class whose name and parameters have been read. -/
structure OpenClass where
  /-- The place of the word `class`. -/
  start : Span
  name : Text
  params : List Text
  /-- The methods read so far. -/
  methods : List Method

/-- What the type at hand is a part of, outside all type applications. -/
inductive TypeRole where
  /-- The result type of a method. -/
  | result
  /-- A parameter type, after the result type, the name and the earlier
  parameter types of the method. -/
  | param (returns : TypeUse) (name : Text) (params : List TypeUse)

/-- Where the machine stands within the program. -/
inductive Stage where
  /-- Between classes. -/
  | between
  /-- After `class`. -/
  | className (start : Span)
  /-- After the class name. -/
  | paramsOpen (start : Span) (name : Text)
  /-- Before a parameter name, after the earlier ones. -/
  | paramName (start : Span) (name : Text) (params : List Text)
  /-- After a parameter name. -/
  | paramNext (start : Span) (name : Text) (params : List Text)
  /-- After the parameters. -/
  | bodyOpen (start : Span) (name : Text) (params : List Text)
  /-- Before a method or the end of the class. -/
  | member (cls : OpenClass)
  /-- Before a type argument. -/
  | argument (cls : OpenClass) (role : TypeRole) (opened : OpenType) (stack : List OpenType)
  /-- After the question mark of a wildcard. -/
  | bound (cls : OpenClass) (role : TypeRole) (opened : OpenType) (stack : List OpenType)
  /-- After the bound of a wildcard. -/
  | bounded (cls : OpenClass) (role : TypeRole) (opened : OpenType) (stack : List OpenType)
  /-- After a type name, which may yet be applied. -/
  | typeName (cls : OpenClass) (role : TypeRole) (stack : List OpenType) (name : Text) (span : Span)
  /-- After a type argument. -/
  | argumentNext (cls : OpenClass) (role : TypeRole) (opened : OpenType) (stack : List OpenType)
  /-- After the result type of a method. -/
  | methodName (cls : OpenClass) (returns : TypeUse)
  /-- After the name of a method. -/
  | methodOpen (cls : OpenClass) (returns : TypeUse) (name : Text)
  /-- Before a parameter type or the end of the parameters. -/
  | methodParam (cls : OpenClass) (returns : TypeUse) (name : Text) (params : List TypeUse)
  /-- After the parameters of a method. -/
  | methodEnd (cls : OpenClass) (returns : TypeUse) (name : Text) (params : List TypeUse)

namespace Stage

/-- The stage after a complete type. -/
def afterType (cls : OpenClass) (role : TypeRole) (stack : List OpenType) (type : TypeUse) : Stage :=
  match stack, role with
  | opened :: stack, role =>
    .argumentNext cls role { opened with args := opened.args ++ [(opened.wildcard, type)] } stack
  | [], .result => .methodName cls type
  | [], .param returns name params => .methodParam cls returns name (params ++ [type])

/-- The stage with a type name taken as a complete type. -/
def settled : Stage → Stage
  | .typeName cls role stack name span => afterType cls role stack (.mk name [] span)
  | stage => stage

/-- What may follow, in words, as far as a token goes. -/
def expected : Stage → Text
  | .between => "'class'"
  | .className _ => "class name"
  | .paramsOpen .. => "'<'"
  | .paramName .. => "type parameter name"
  | .paramNext .. => "'>'"
  | .bodyOpen .. => "'\x7b'"
  | .member _ => "type name"
  | .argument .. => "type name"
  | .bound .. => "'extends' or 'super'"
  | .bounded .. => "type name"
  | .typeName .. => "'<'"
  | .argumentNext .. => "'>'"
  | .methodName .. => "method name"
  | .methodOpen .. => "'('"
  | .methodParam .. => "type name"
  | .methodEnd .. => "';'"

/-- What was missing at the end of the input, in words. -/
def expectedAtEnd : Stage → Text
  | .member _ => "method or '\x7d'"
  | stage => stage.expected

end Stage

/-- The state of the machine: the classes read so far, and the stage. -/
structure Reader where
  classes : List ClassDecl
  stage : Stage

namespace Reader

/-- Nothing has been read. -/
def start : Reader := ⟨[], .between⟩

/-- The diagnostic of a token that cannot follow. -/
def refusal (stage : Stage) (t : Token) : Diagnostic := ⟨.malformed stage.expected t.text, t.span⟩

/-- Goes on to `stage` if `t` reads `word`. -/
def word (r : Reader) (t : Token) (word : Text) (stage : Stage) : Except Diagnostic Reader :=
  if t.text = word then .ok { r with stage } else .error (refusal r.stage t)

/-- Goes on to `stage` if `t` is an identifier. -/
def identifier (r : Reader) (t : Token) (stage : Stage) : Except Diagnostic Reader :=
  if t.kind = .identifier then .ok { r with stage } else .error (refusal r.stage t)

/-- Takes a token at a stage other than `typeName`. -/
def take (r : Reader) (t : Token) : Except Diagnostic Reader :=
  match r.stage with
  | .between => r.word t "class" (.className t.span)
  | .className start => r.identifier t (.paramsOpen start t.text)
  | .paramsOpen start name => r.word t "<" (.paramName start name [])
  | .paramName start name params =>
    if t.kind = .identifier ∧ t.text ∈ params then .error ⟨.duplicateParam name t.text, t.span⟩
    else r.identifier t (.paramNext start name (params ++ [t.text]))
  | .paramNext start name params =>
    if t.text = "," then .ok { r with stage := .paramName start name params }
    else r.word t ">" (.bodyOpen start name params)
  | .bodyOpen start name params => r.word t "\x7b" (.member ⟨start, name, params, []⟩)
  | .member cls =>
    if t.text = "\x7d" then
      .ok ⟨r.classes ++ [⟨cls.name, cls.params, cls.methods, cls.start.between t.span⟩], .between⟩
    else r.identifier t (.typeName cls .result [] t.text t.span)
  | .argument cls role opened stack =>
    if t.text = "?" then .ok { r with stage := .bound cls role opened stack }
    else r.identifier t
      (.typeName cls role ({ opened with wildcard := .bare } :: stack) t.text t.span)
  | .bound cls role opened stack =>
    if t.text = "extends" then
      .ok { r with stage := .bounded cls role { opened with wildcard := .upper } stack }
    else r.word t "super" (.bounded cls role { opened with wildcard := .lower } stack)
  | .bounded cls role opened stack =>
    r.identifier t (.typeName cls role (opened :: stack) t.text t.span)
  | .typeName cls role stack name span =>
    r.word t "<" (.argument cls role ⟨name, span, [], .bare⟩ stack)
  | .argumentNext cls role opened stack =>
    if t.text = "," then .ok { r with stage := .argument cls role opened stack }
    else r.word t ">"
      (.afterType cls role stack (.mk opened.name opened.args (opened.span.between t.span)))
  | .methodName cls returns => r.identifier t (.methodOpen cls returns t.text)
  | .methodOpen cls returns name => r.word t "(" (.methodParam cls returns name [])
  | .methodParam cls returns name params =>
    if t.text = ")" then .ok { r with stage := .methodEnd cls returns name params }
    else r.identifier t (.typeName cls (.param returns name params) [] t.text t.span)
  | .methodEnd cls returns name params =>
    let method : Method := ⟨returns, name, params, returns.span.between t.span⟩
    r.word t ";" (.member { cls with methods := cls.methods ++ [method] })

/-- Takes one token. A type name that is not followed by `<` is a complete
type, and the token is taken after it. -/
def step (r : Reader) (t : Token) : Except Diagnostic Reader :=
  match r.stage with
  | .typeName .. =>
    if t.text = "<" then r.take t else take { r with stage := r.stage.settled } t
  | _ => r.take t

/-- The end of the input, at `span`. -/
def finish (r : Reader) (span : Span) : Except Diagnostic (List ClassDecl) :=
  match r.stage with
  | .between => .ok r.classes
  | stage => .error ⟨.malformed stage.settled.expectedAtEnd [], span⟩

end Reader

/-- What came of reading a source: the classes that were read completely, and
the diagnostic that ended it, if any. -/
structure Reading where
  classes : List ClassDecl
  diagnostic : Option Diagnostic

namespace Reading

/-- Reads tokens from a state of the machine on, up to the end of the input at
`span` or to the first token that cannot follow. -/
def run (span : Span) : Reader → List Token → Reading
  | r, [] =>
    match r.finish span with
    | .ok classes => ⟨classes, none⟩
    | .error d => ⟨r.classes, some d⟩
  | r, t :: rest =>
    match r.step t with
    | .ok r => run span r rest
    | .error d => ⟨r.classes, some d⟩

/-- The declarations, if nothing was wrong. -/
def result (r : Reading) : Except Diagnostic (List ClassDecl) :=
  match r.diagnostic with
  | none => .ok r.classes
  | some d => .error d

end Reading

/-- The tokens other than white space. -/
def significant (tokens : List Token) : List Token := tokens.filter (·.kind ≠ .whitespace)

/-- Reads the significant ones of some tokens of a source with `length` bytes. -/
def readTokens (tokens : List Token) (length : Int) : Reading :=
  .run (.ofOffsets length length) .start (significant tokens)

/-- The declarations that tokens form which are given from outside, as those of a
source with `length` bytes. -/
def parseTokens (tokens : List Token) (length : Int) : Except Diagnostic (List ClassDecl) :=
  (readTokens (tokens.map fun t => { t with span := t.span.held })
    (Span.outerOffset length)).result

/-- Reads a source. -/
def readSource (source : Text) : Reading := readTokens (tokenize source) source.length

/-- The declarations of a source, or the first thing that is wrong with it. -/
def parse (source : Text) : Except Diagnostic (List ClassDecl) := (readSource source).result

end Polarity
