import Letterbook.Registry

/-! Settings: the locale of last resort, how texts are filled, and where manifests are kept. -/
namespace Letterbook

structure Settings where
  defaultLocale : String
  escape : Markup.Escape
  strict : Bool
  directory : String
  deriving DecidableEq, Repr, Inhabited

namespace Settings

/-- The settings where nothing is set. -/
def standard : Settings := ⟨Locale.standard.tag, .none, false, "templates"⟩

def options (s : Settings) : Markup.Options := ⟨s.escape, s.strict⟩

/-- The locale of last resort. -/
def locale (s : Settings) : Except Locale.Invalid Locale := Locale.parse s.defaultLocale

def locale? (s : Settings) : Option Locale := s.locale.toOption

/-- A draft with the engine and the locale of last resort that are set. -/
def draft (s : Settings) : Except Locale.Invalid Draft :=
  s.locale.map fun locale => (Draft.empty.withEngine (Markup.engine s.options)).withFallback locale

def draft? (s : Settings) : Option Draft := s.draft.toOption

/-- The word for a way of escaping. -/
def escapeWord : Markup.Escape → String
  | .none => "none"
  | .html => "html"

def escape? : String → Option Markup.Escape
  | "none" => some .none
  | "html" => some .html
  | _ => none

end Settings
end Letterbook
