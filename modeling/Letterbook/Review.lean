import Letterbook.Form

/-! Reviewing prepared forms against the installed documents. Every check runs for every form, so
that all problems come together; only the check for repeated forms looks at earlier ones. -/
namespace Letterbook

/-- What a form occupies for each of its targets. -/
structure Place where
  source : String
  target : String
  locale : Locale
  deriving DecidableEq, Repr

namespace PreparedForm

def places (f : PreparedForm) : List Place :=
  f.targets.toList.map fun target => ⟨f.source.name, target, f.locale⟩

/-- A form without targets could never be looked up. -/
def untargeted (f : PreparedForm) : List Defect := if f.targets.isEmpty then [.untargeted] else []

/-- The targets whose place is taken. -/
def repeated (taken : List Place) (f : PreparedForm) : List Defect :=
  (f.places.filter (· ∈ taken)).map fun place => .repeated place.target

/-- The targets that are no installed documents. -/
def uninstalled (documents : Table String Schema) (f : PreparedForm) : List Defect :=
  (f.targets.toList.filter fun target => !documents.contains target).map .uninstalled

/-- The variables whose root is no field of the record. What lies below the root is not checked. -/
def unknownNames (f : PreparedForm) : List Defect :=
  (f.references.filter fun (_, name) => !f.source.hasField (rootKey name)).map
    fun (field, name) => .unknownName field name

/-- The fields that no target declares. -/
def undeclared (targets : List Schema) (f : PreparedForm) : List Defect :=
  (f.fields.keys.filter fun field => !targets.any (·.hasField field)).map
    fun field => .undeclared field f.targets.toList

/-- The fields that the document needs and the form leaves out; a blank one is not left out. -/
def missing (document : Schema) (f : PreparedForm) : List Defect :=
  (document.requiredFields.filter fun spec => !f.fields.contains spec.name).map
    fun spec => .missing document.name spec.name

/-- Whether the fields fit the targets. That can be told only once every target is known, and
only a form with one target has to be complete. -/
def misfits (documents : Table String Schema) (f : PreparedForm) : List Defect :=
  let targets := f.targets.toList.filterMap documents.find?
  if targets.length < f.targets.toList.length then []
  else match targets with
    | [] => []
    | [document] => f.undeclared [document] ++ f.missing document
    | targets => f.undeclared targets

/-- All problems of a form, given the places that earlier forms have taken. -/
def problems (documents : Table String Schema) (taken : List Place) (f : PreparedForm) :
    List Problem :=
  (f.untargeted ++ f.repeated taken ++ f.uninstalled documents ++ f.unknownNames ++
    f.misfits documents).map f.problem

end PreparedForm

/-- A review in progress. -/
structure Review where
  documents : Table String Schema
  taken : List Place

namespace Review

/-- A review that has seen no form. -/
def start (documents : Table String Schema) : Review := ⟨documents, []⟩

/-- The problems of the next form, and the review that has seen it. -/
def check (r : Review) (f : PreparedForm) : List Problem × Review :=
  (f.problems r.documents r.taken, { r with taken := r.taken ++ f.places })

/-- The problems of several forms, each with those of its own. -/
def checkEach (r : Review) : List PreparedForm → List (List Problem)
  | [] => []
  | f :: rest => (r.check f).1 :: (r.check f).2.checkEach rest

/-- The problems of several forms in their order. -/
def checkAll (r : Review) (forms : List PreparedForm) : List Problem := (r.checkEach forms).flatten

end Review
end Letterbook
