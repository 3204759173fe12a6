import Letterbook.Json.Decoder
import Letterbook.Settings

/-! Settings as JSON: an object of three sections. What is left out has its standard value. -/
namespace Letterbook.Settings

open Json.Decoder (Slot)

def toJson (s : Settings) : Json :=
  .object [
    ("barbershop", .object [("default_locale", .str s.defaultLocale)]),
    ("render", .object [("escape", .str (escapeWord s.escape)), ("strict", .bool s.strict)]),
    ("templates", .object [("dir", .str s.directory)])]

/-- A way of escaping: its word, or an object with the word as the one key of null. -/
def escapeDecoder : Json.Decoder Markup.Escape
  | .obj [(some word, .null)] none => Json.Decoder.spelled escape? (.str (some word))
  | r => Json.Decoder.spelled escape? r

/-- A section with one member. -/
def sectionDecoder (name : String) (d : Json.Decoder α) : Json.Decoder (Option α) :=
  .record false [Slot.ofField name d id fun _ a => a] none some

def renderDecoder : Json.Decoder (Option Markup.Escape × Option Bool) :=
  .record false
    [Slot.ofField "escape" escapeDecoder Prod.fst fun s a => (a, s.2),
      Slot.ofField "strict" .bool Prod.snd fun s a => (s.1, a)]
    (none, none) some

/-- The sections as far as they are known. -/
structure Sections where
  locale : Option (Option String)
  render : Option (Option Markup.Escape × Option Bool)
  directory : Option (Option String)

def Sections.settings (s : Sections) : Settings where
  defaultLocale := s.locale.join.getD standard.defaultLocale
  escape := (s.render.bind Prod.fst).getD standard.escape
  strict := (s.render.bind Prod.snd).getD standard.strict
  directory := s.directory.join.getD standard.directory

def decoder : Json.Decoder Settings :=
  .record false
    [Slot.ofField "barbershop" (sectionDecoder "default_locale" .string) Sections.locale
        fun s a => { s with locale := a },
      Slot.ofField "render" renderDecoder Sections.render fun s a => { s with render := a },
      Slot.ofField "templates" (sectionDecoder "dir" .string) Sections.directory
        fun s a => { s with directory := a }]
    ⟨none, none, none⟩ (some ∘ Sections.settings)

end Letterbook.Settings
