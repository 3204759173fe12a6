import Letterbook.Markup.Variables

/-! The paths that a template reads when its tags print and its blocks choose between bodies. Their
variables are variables of the template: no place where a path can stand is passed over. -/
namespace Letterbook.Markup

mutual

/-- The paths that an argument reads. The name of a call is not read. -/
def Arg.paths : Arg → List Path
  | .path p => [p]
  | .literal _ => []
  | .call _ args hash => Arg.listPaths args ++ Arg.hashPaths hash

def Arg.listPaths : List Arg → List Path
  | [] => []
  | arg :: rest => arg.paths ++ Arg.listPaths rest

def Arg.hashPaths : List (String × Arg) → List Path
  | [] => []
  | (_, arg) :: rest => arg.paths ++ Arg.hashPaths rest

end

mutual

/-- The paths that an element reads. -/
def Element.paths : Element → List Path
  | .output _ name args hash _ =>
    if args.isEmpty && hash.isEmpty then name.paths
    else Arg.listPaths args ++ Arg.hashPaths hash
  | .block _ _ args hash _ body inverse _ =>
    Arg.listPaths args ++ Arg.hashPaths hash ++ Element.listPaths body ++
      Element.inversePaths inverse
  | .text _ | .comment | .decorator .. | .partialCall .. => []

def Element.listPaths : List Element → List Path
  | [] => []
  | e :: rest => e.paths ++ Element.listPaths rest

def Element.inversePaths : Option (List Element) → List Path
  | none => []
  | some body => Element.listPaths body

end

/-- The helper of a tag with arguments is named, not computed. -/
def Arg.isPath : Arg → Bool
  | .path _ => true
  | .literal _ | .call .. => false

mutual

/-- Texts, comments, tags that print, and blocks that choose by a truth. -/
def Element.isPlain : Element → Bool
  | .text _ | .comment => true
  | .output _ name args hash _ => args.isEmpty && hash.isEmpty || name.isPath
  | .block _ name _ _ _ body inverse _ =>
    keepsContext name && Element.listIsPlain body && Element.inverseIsPlain inverse
  | .decorator .. | .partialCall .. => false

def Element.listIsPlain : List Element → Bool
  | [] => true
  | e :: rest => e.isPlain && Element.listIsPlain rest

def Element.inverseIsPlain : Option (List Element) → Bool
  | none => true
  | some body => Element.listIsPlain body

end

variable {p : Path}

theorem Arg.paths_of_isEmpty {args : List Arg} {hash : List (String × Arg)}
    (alone : (args.isEmpty && hash.isEmpty) = true) :
    Arg.listPaths args ++ Arg.hashPaths hash = [] := by
  obtain ⟨noArgs, noHash⟩ := Bool.and_eq_true_iff.mp alone
  rw [List.isEmpty_iff.mp noArgs, List.isEmpty_iff.mp noHash]
  rfl

mutual

theorem Arg.variables_subset {arg : Arg} (read : p ∈ arg.paths) :
    p.variables ⊆ arg.variables := by
  cases arg with
  | path q =>
    obtain rfl := List.mem_singleton.mp read
    exact List.Subset.refl _
  | literal value => cases read
  | call name args hash =>
    rw [Arg.paths] at read
    rw [Arg.variables]
    split
    · next alone => simp [Arg.paths_of_isEmpty alone] at read
    · rcases List.mem_append.mp read with read | read
      · exact List.subset_append_of_subset_left _ (Arg.listVariables_subset read)
      · exact List.subset_append_of_subset_right _ (Arg.hashVariables_subset read)

theorem Arg.listVariables_subset {args : List Arg} (read : p ∈ Arg.listPaths args) :
    p.variables ⊆ Arg.listVariables args := by
  cases args with
  | nil => cases read
  | cons arg rest =>
    rcases List.mem_append.mp read with read | read
    · exact List.subset_append_of_subset_left _ (Arg.variables_subset read)
    · exact List.subset_append_of_subset_right _ (Arg.listVariables_subset read)

theorem Arg.hashVariables_subset {hash : List (String × Arg)} (read : p ∈ Arg.hashPaths hash) :
    p.variables ⊆ Arg.hashVariables hash := by
  cases hash with
  | nil => cases read
  | cons entry rest =>
    rcases List.mem_append.mp read with read | read
    · exact List.subset_append_of_subset_left _ (Arg.variables_subset read)
    · exact List.subset_append_of_subset_right _ (Arg.hashVariables_subset read)

end

mutual

/-- The variable of every path that a plain element reads is a variable of the element. -/
theorem Element.variables_subset {e : Element} (plain : e.isPlain = true) (read : p ∈ e.paths) :
    p.variables ⊆ e.variables := by
  cases e with
  | text | comment | decorator | partialCall => cases read
  | output pos name args hash escaped =>
    rw [Element.paths] at read
    rw [Element.variables]
    split at read
    · next alone =>
      rw [if_pos alone]
      exact Arg.variables_subset read
    · next some =>
      rw [if_neg some]
      rcases List.mem_append.mp read with read | read
      · exact List.subset_append_of_subset_left _ (Arg.listVariables_subset read)
      · exact List.subset_append_of_subset_right _ (Arg.hashVariables_subset read)
  | block pos name args hash names body inverse leads =>
    simp only [Element.isPlain, Bool.and_eq_true] at plain
    obtain ⟨⟨keeps, body⟩, inverse⟩ := plain
    intro v member
    simp only [Element.variables, if_pos keeps, List.mem_append]
    simp only [Element.paths, List.mem_append] at read
    obtain ((read | read) | read) | read := read
    · exact .inl (.inl (.inl (Arg.listVariables_subset read member)))
    · exact .inl (.inl (.inr (Arg.hashVariables_subset read member)))
    · exact .inl (.inr (Element.listVariables_subset body read member))
    · exact .inr (Element.inverseVariables_subset inverse read member)

theorem Element.listVariables_subset {es : List Element} (plain : Element.listIsPlain es = true)
    (read : p ∈ Element.listPaths es) : p.variables ⊆ Element.listVariables es := by
  cases es with
  | nil => cases read
  | cons e rest =>
    obtain ⟨first, others⟩ := Bool.and_eq_true_iff.mp plain
    rcases List.mem_append.mp read with read | read
    · exact List.subset_append_of_subset_left _ (Element.variables_subset first read)
    · exact List.subset_append_of_subset_right _ (Element.listVariables_subset others read)

theorem Element.inverseVariables_subset {inverse : Option (List Element)}
    (plain : Element.inverseIsPlain inverse = true) (read : p ∈ Element.inversePaths inverse) :
    p.variables ⊆ Element.inverseVariables inverse := by
  cases inverse with
  | none => cases read
  | some body => exact Element.listVariables_subset plain read

end

namespace Template

/-- A template of texts, comments, tags that print, and blocks that choose by a truth. -/
def IsPlain (t : Template) : Prop := Element.listIsPlain t = true

def paths (t : Template) : List Path := Element.listPaths t

end Template
end Letterbook.Markup
