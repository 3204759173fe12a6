import Letterbook.Proofs.Prepared
import Letterbook.Registry

/-! A survey form by form. What is reported for a form depends on the forms before it only through
the places that they have taken, and a form that does not compile takes none. -/
namespace Letterbook

namespace Form

/-- What a survey reports for a form when these places are taken. -/
def report (engine : Engine) (documents : Table String Schema) (taken : List Place) (f : Form) :
    List Problem :=
  match f.prepare engine with
  | .error problems => problems
  | .ok p => p.problems documents taken

/-- The places that a surveyed form takes. -/
def occupied (engine : Engine) (f : Form) : List Place :=
  match f.prepare engine with
  | .error _ => []
  | .ok _ => f.places

variable {engine : Engine} {documents : Table String Schema} {f : Form} {p : PreparedForm}

theorem report_of_preparedAs (h : f.PreparedAs engine p) (taken : List Place) :
    f.report engine documents taken = p.problems documents taken := by
  rw [report, prepare_eq_ok_iff.mpr h]

theorem occupied_of_compiles (h : f.Compiles engine) : f.occupied engine = f.places := by
  rw [occupied, prepare_eq_ok_iff.mpr (outcome_preparedAs h)]

theorem report_of_not_compiles (h : ¬ f.Compiles engine) (taken : List Place) :
    f.report engine documents taken = f.refusals engine := by
  rw [report, prepare_eq_error_iff.mpr ⟨h, rfl⟩]

theorem occupied_of_not_compiles (h : ¬ f.Compiles engine) : f.occupied engine = [] := by
  rw [occupied, prepare_eq_error_iff.mpr ⟨h, rfl⟩]

end Form

namespace Survey

variable {engine : Engine} {documents : Table String Schema} {taken : List Place}

theorem problems_cons (f : Form) (rest : List Form) :
    (ofForms engine ⟨documents, taken⟩ (f :: rest)).problems =
      f.report engine documents taken ++
        (ofForms engine ⟨documents, taken ++ f.occupied engine⟩ rest).problems := by
  cases outcome : f.prepare engine with
  | error problems =>
    simp only [ofForms, Form.report, Form.occupied, outcome, List.append_nil]
  | ok p =>
    have places := (Form.prepare_eq_ok_iff.mp outcome).places
    simp only [ofForms, Form.report, Form.occupied, outcome, Review.check, places]

/-- The prepared forms are those of the forms that compile, whatever else is wrong with them. -/
theorem forms_eq (review : Review) (forms : List Form) :
    (ofForms engine review forms).forms =
      forms.filterMap fun f => (f.prepare engine).toOption := by
  induction forms generalizing review with
  | nil => rfl
  | cons f rest ih =>
    cases outcome : f.prepare engine <;>
      simp only [ofForms, List.filterMap_cons, outcome, Except.toOption, ih]

end Survey
end Letterbook
