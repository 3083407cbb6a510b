import QueryDialect.Conversion.Ownership
import QueryDialect.Json.Reader
import QueryDialect.Options.Reader
import QueryDialect.Text.Backspace
import QueryDialect.Text.Blank

namespace QueryDialect.Console

def configFile : String :=
  "translator.json"

def banner : String :=
  "--- Filter Translator: LoopBack 过滤器到 Prisma 过滤器 ---"

def hint : String :=
  "输入 .help 查看用法"

def usage : String :=
  "用法: .where <json>，例如 .where \x7b\"age\": \x7b\"gt\": 18\x7d\x7d"

def help : String :=
  "\n".intercalate [
    "输入一行JSON过滤器即可翻译，例如：",
    "  \x7b\"fields\": [\"id\"], \"limit\": 10, \"order\": [\"age DESC\"], \"where\": "
      ++ "\x7b\"age\": \x7b\"gt\": 18\x7d\x7d\x7d",
    "命令：",
    "  .where <json>   只翻译谓词树",
    "  .options        显示当前翻译选项",
    "  .help           显示帮助",
    "  .exit           退出"]

/-- Options that cannot be loaded are replaced by the defaults. -/
def loadOptions (wording : Wording) (config : FileContent) : Options :=
  match Options.ofFile wording configFile config with
  | .ok options => options
  | .error _ => {}

def configReport (wording : Wording) (config : FileContent) : String :=
  match Options.ofFile wording configFile config with
  | .ok _ => "✅ 使用JSON配置文件: " ++ configFile
  | .error error => "⚠️ 未加载配置文件 (" ++ error.message ++ "), 使用默认配置"

/-- The lines with which a session opens. -/
def opening (wording : Wording) (config : FileContent) : List String :=
  [banner, configReport wording config, hint]

/-- What the console does with a line. -/
inductive Reply where
  | silence
  | text (text : String)
  | leave
  | abort
  deriving DecidableEq

/-- The answer to a JSON text: its conversion, or why there is none. -/
def answer (wording : Wording) (convert : Json → Checked Json) (source : String) : String :=
  match Json.ofText? source with
  | none => "✗ 输入不是合法的JSON: " ++ wording.notJson source
  | some json =>
    match convert json with
    | .ok converted => converted.pretty
    | .error error => "✗ [" ++ error.kind ++ "] " ++ error.message

/-- What is done with a trimmed line: a command alone, the clause command followed by JSON, or
JSON. -/
def answerLine (wording : Wording) (options : Options) (line : String) : Reply :=
  let (command, argument) := Text.cut Text.isBlank line
  if line = "" then .silence
  else if line = ".exit" ∨ line = ".quit" then .leave
  else if line = ".where" then .text usage
  else if line = ".help" then .text help
  else if line = ".options" then .text options.toJson.pretty
  else if command = ".where" then
    .text (answer wording (Clause.convertJson options) (Text.trim argument))
  else .text (answer wording (Filter.convertJson options) line)

/-- What is done with a line as it was typed. Backspaces are applied before anything else. -/
def reply (wording : Wording) (options : Options) (typed : String) : Reply :=
  match Text.applyBackspaces? typed with
  | some line => answerLine wording options (Text.trim line)
  | none => .abort

/-- What a session leaves behind: the texts it printed, each ended by a line break, and its exit
code. -/
structure Outcome where
  printed : List String
  exitCode : UInt8

def Outcome.after (text : String) (outcome : Outcome) : Outcome :=
  { outcome with printed := text :: outcome.printed }

/-- The exit code of a session that a line broke off. -/
def abortCode : UInt8 := 101

/-- The replies to the lines up to the first one that ends the session. -/
def answerLines (wording : Wording) (options : Options) : List String → Outcome
  | [] => { printed := [], exitCode := 0 }
  | line :: rest =>
    match reply wording options line with
    | .silence => answerLines wording options rest
    | .text text => (answerLines wording options rest).after text
    | .leave => { printed := [], exitCode := 0 }
    | .abort => { printed := [], exitCode := abortCode }

def run (wording : Wording) (config : FileContent) (lines : List String) : Outcome :=
  (opening wording config).foldr Outcome.after
    (answerLines wording (loadOptions wording config) lines)

end QueryDialect.Console
