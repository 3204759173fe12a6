import Letterbook.Engine
import Letterbook.Markup.Render
import Letterbook.Markup.Template
import Letterbook.Markup.Variables

/-! The engine for markup. -/
namespace Letterbook.Markup

/-- A template as an executable text. -/
def Template.executable (o : Options) (t : Template) : Executable where
  names := t.variables
  execute root := match t.render o root with
    | .ok text => .ok text
    | .error e => .error e.message

/-- The engine that compiles markup and fills it by these options. -/
def engine (o : Options) : Engine where
  compile s := match Template.parse s with
    | .ok t => .ok (t.executable o)
    | .error r => .error (r.message s)

/-- The engine of a registry that asks for none: nothing is escaped, what is missing is empty. -/
def defaultEngine : Engine := engine ⟨.none, false⟩

/-- The engine in a diagnostic. -/
def Options.debug (o : Options) : String :=
  "HandlebarsEngine \x7b strict: " ++ (if o.strict then "true" else "false") ++ " \x7d"

/-- A compiled text in a diagnostic. -/
def debugExecutable (e : Executable) : String :=
  "HandlebarsTemplate \x7b variables: \x7b" ++
    String.intercalate ", " (e.names.toList.map Text.debug) ++ "\x7d \x7d"

end Letterbook.Markup
