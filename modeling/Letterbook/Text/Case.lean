/-! Case folding. It concerns the letters of ASCII; all other characters stay as they are. -/
namespace Letterbook.Text

def lower (s : List Char) : String := String.ofList (s.map Char.toLower)

def upper (s : List Char) : String := String.ofList (s.map Char.toUpper)

end Letterbook.Text
