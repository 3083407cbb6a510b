import QueryDialect.Json.Written
import QueryDialect.Options.Basic

namespace QueryDialect

open Json (Written Piece Number)

/-- What the JSON library says about the texts that it refuses. Which texts these are is settled here,
the words are its own. -/
structure Wording where
  /-- Why the text is no JSON. -/
  notJson : String → String
  /-- Why the text gives no options. -/
  notOptions : String → String

/-- Why there are no options. The source of an error is what was said where it arose. -/
inductive OptionsError where
  | notFound (path : String)
  | unreadable (path source : String)
  | invalid (path source : String)
  | zeroDepth
  deriving DecidableEq

def OptionsError.message : OptionsError → String
  | notFound path => "配置文件不存在: " ++ path
  | unreadable path source => "无法读取配置文件 " ++ path ++ ": " ++ source
  | invalid path source => "无法解析JSON配置文件 " ++ path ++ ": " ++ source
  | zeroDepth => "max_depth 必须大于 0"

/-- What is found where a file is expected: nothing, something that the system cannot read for a
reason it gives, or the content. -/
inductive FileContent where
  | missing
  | unreadable (reason : String)
  | bytes (content : ByteArray)

/-- Why content cannot be read as text. -/
def notUtf8 : String :=
  "stream did not contain valid UTF-8"

namespace Options

def exclusive? : Written → Option Bool
  | .bool value => some value
  | _ => none

def maxDepth? : Written → Option UInt64
  | .number literal => (Number.ofLiteral? literal).bind Number.toUInt64?
  | _ => none

/-- The value of a member that may be missing and may not be repeated. -/
def unique? {α : Type} (members : List (String × Written)) (key : String)
    (read : Written → Option α) (missing : α) : Option α :=
  match members.filter (·.1 = key) with
  | [] => some missing
  | [member] => read member.2
  | _ => none

def ofMembers? (members : List (String × Written)) : Option Options := do
  let defaults : Options := {}
  return {
    exclusive := ← unique? members "assume_exclusive_ownership" exclusive? defaults.exclusive
    maxDepth := ← unique? members "max_depth" maxDepth? defaults.maxDepth }

def ofWritten? : Written → Option Options
  | .object members => do
    ofMembers? (← members.mapM fun member => return (← Piece.decode? member.1, member.2))
  | .array [] => some {}
  | .array [exclusive] => do return { exclusive := ← exclusive? exclusive }
  | .array [exclusive, maxDepth] => do
    return { exclusive := ← exclusive? exclusive, maxDepth := ← maxDepth? maxDepth }
  | _ => none

/-- The options of a text, which comes from the named source: the known members of an object, or the
same values in a fixed order. Other members are not looked into. -/
def ofNamedText (wording : Wording) (path text : String) : Except OptionsError Options :=
  match (Written.ofText? text).bind ofWritten? with
  | none => .error (.invalid path (wording.notOptions text))
  | some options => if options.maxDepth = 0 then .error .zeroDepth else .ok options

def ofText (wording : Wording) (text : String) : Except OptionsError Options :=
  ofNamedText wording "<inline>" text

def ofFile (wording : Wording) (path : String) : FileContent → Except OptionsError Options
  | .missing => .error (.notFound path)
  | .unreadable reason => .error (.unreadable path reason)
  | .bytes content =>
    match String.fromUTF8? content with
    | none => .error (.unreadable path notUtf8)
    | some text => ofNamedText wording path text

end Options
end QueryDialect
