import Letterbook.Json
import Letterbook.Schema

/-! Records of the host program: values that forms read, and values that filled fields become. -/
namespace Letterbook

/-- Records that forms can read. -/
class DataRecord (α : Type u) where
  schema : Schema
  json : α → Json

/-- Records that filled fields can become; a field is absent where the document has none, and
without text where it is blank. -/
class DocumentRecord (α : Type u) where
  schema : Schema
  ofFields? : Table String (Option String) → Option α

end Letterbook
