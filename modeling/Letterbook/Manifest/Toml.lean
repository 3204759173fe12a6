import Letterbook.Manifest.Json
import Letterbook.Toml.Reading

/-! Manifests as TOML documents, with the members and records of the JSON form. Here a list may go
on after the last field of its record. -/
namespace Letterbook.Manifest

/-- The manifest of a TOML text, if the text is a document of that shape. -/
def ofTomlText? (text : String) : Option Manifest :=
  (Toml.reading? text).bind fun r => (decoder true r).toOption

end Letterbook.Manifest
