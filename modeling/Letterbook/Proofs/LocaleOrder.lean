import Letterbook.Proofs.ByteOrder
import Letterbook.Proofs.CommandLine
import Letterbook.Proofs.LocaleRoundTrip

/-! The order of locales. Locales that were read from tags are in the order of the bytes of their tags:
the hyphen is below all letters and digits, so a word that ends is below one that goes on, whether a
hyphen follows it or nothing, and no variant stands without a region. So wherever the locales of a pair
are listed, their tags ascend. -/
namespace Letterbook

namespace Locale

open Text (bytes)

variable {tag : String} {l m : Locale}

section Separators

variable {α : Type} {separator : α} {xs ys s t : List α} {p q r u : Option (List α)}

/-- An optional part behind a separator. -/
def behind (separator : α) : Option (List α) → List α
  | none => []
  | some part => separator :: part

theorem head?_behind_append (next : ∀ x ∈ s.head?, x = separator) :
    ∀ x ∈ (behind separator p ++ s).head?, x = separator := by
  cases p with
  | none => exact next
  | some part => exact fun x first => (Option.some.inj first).symm

theorem head?_behind : ∀ x ∈ (behind separator p).head?, x = separator := by
  rw [← List.append_nil (behind separator p)]
  exact head?_behind_append (by simp)

variable [Ord α] [Std.TransOrd α]

/-- Words of what is above the separator decide first, even if one is the beginning of the other. -/
theorem compare_append_append (above : ∀ x ∈ xs, compare separator x = .lt)
    (above' : ∀ y ∈ ys, compare separator y = .lt) (next : ∀ x ∈ s.head?, x = separator)
    (next' : ∀ y ∈ t.head?, y = separator) :
    compare (xs ++ s) (ys ++ t) = (compare xs ys).then (compare s t) := by
  induction xs generalizing ys with
  | nil =>
    cases ys with
    | nil => rfl
    | cons y ys =>
      cases s with
      | nil => rfl
      | cons x s =>
        obtain rfl : x = separator := next x rfl
        rw [List.nil_append, List.cons_append, List.compare_cons_cons, above' y List.mem_cons_self]
        rfl
  | cons x xs ih =>
    cases ys with
    | nil =>
      cases t with
      | nil => rfl
      | cons y t =>
        obtain rfl : y = separator := next' y rfl
        have greater := Std.OrientedCmp.gt_of_lt (above x List.mem_cons_self)
        rw [List.nil_append, List.cons_append, List.compare_cons_cons, greater]
        rfl
    | cons y ys =>
      rw [List.forall_mem_cons] at above above'
      rw [List.cons_append, List.cons_append, List.compare_cons_cons, List.compare_cons_cons,
        ih above.2 above'.2, Ordering.then_assoc]

theorem compare_behind : compare (behind separator p) (behind separator q) = compare p q := by
  cases p with
  | none => cases q <;> rfl
  | some xs =>
    cases q with
    | none => rfl
    | some ys =>
      rw [behind, behind, List.compare_cons_cons, Std.ReflOrd.compare_self]
      rfl

/-- Two optional parts, of which the later one is there only if the earlier one is. -/
theorem compare_behind_append_behind (above : ∀ xs ∈ p, ∀ x ∈ xs, compare separator x = .lt)
    (above' : ∀ ys ∈ q, ∀ y ∈ ys, compare separator y = .lt) (held : p = none → r = none)
    (held' : q = none → u = none) :
    compare (behind separator p ++ behind separator r) (behind separator q ++ behind separator u) =
      (compare p q).then (compare r u) := by
  cases p with
  | none =>
    obtain rfl := held rfl
    cases q with
    | none =>
      obtain rfl := held' rfl
      rfl
    | some ys => rfl
  | some xs =>
    cases q with
    | none =>
      obtain rfl := held' rfl
      rfl
    | some ys =>
      rw [behind, behind, List.cons_append, List.cons_append, List.compare_cons_cons,
        Std.ReflOrd.compare_self,
        compare_append_append (above xs rfl) (above' ys rfl) head?_behind head?_behind,
        compare_behind]
      rfl

end Separators

section Parts

/-- The order by the bytes of the parts: language, then region, then variant, where an absent part
comes first. -/
def compareParts (l m : Locale) : Ordering :=
  (compare (bytes l.language) (bytes m.language)).then
    ((compare (l.region.map bytes) (m.region.map bytes)).then
      (compare (l.variant.map bytes) (m.variant.map bytes)))

theorem compare_map_bytes (x y : Option String) :
    compare (x.map bytes) (y.map bytes) = compare x y := by
  cases x with
  | none => cases y <;> rfl
  | some s =>
    cases y with
    | none => rfl
    | some t => exact Text.compare_bytes s t

theorem compare_eq_compareParts (l m : Locale) : compare l m = compareParts l m := by
  rw [compare_eq_then, compareParts, Text.compare_bytes, compare_map_bytes, compare_map_bytes]

theorem bytes_tag (l : Locale) : bytes l.tag = bytes l.language ++
    (behind 0x2d (l.region.map bytes) ++ behind 0x2d (l.variant.map bytes)) := by
  have hyphen : bytes "-" = [0x2d] := by decide +kernel
  obtain ⟨language, region, variant⟩ := l
  cases region <;> cases variant <;> simp [tag, hyphen, behind]

/-- What a tag spells: the language and the region are words, and a variant has a region. -/
structure IsSpelled (l : Locale) : Prop where
  language : IsWord l.language.toList
  region : ∀ region ∈ l.region, IsWord region.toList
  variant : l.region = none → l.variant = none

theorem isSpelled_of_parse (read : parse tag = .ok l) : l.IsSpelled := by
  obtain ⟨pieces, cut⟩ := exists_pieces tag
  obtain ⟨words, given⟩ := (parse?_eq_some_iff_pieces cut).mp (parse_eq_ok_iff.mp read)
  rcases pieces with _ | ⟨language, _ | ⟨region, rest⟩⟩
  · contradiction
  · cases given
    exact ⟨isWord_language read, by simp, fun _ => rfl⟩
  · have word : IsWord region := words region (by simp)
    cases rest <;> cases given
    all_goals exact ⟨isWord_language read, by simpa using word.upper, by simp⟩

/-- The bytes of a word are those of letters and digits, all of them above the hyphen. -/
theorem compare_hyphen_of_isWord {s : String} (word : IsWord s.toList) :
    ∀ b ∈ bytes s, compare 0x2d b = .lt := by
  intro b member
  rw [Text.bytes_eq_flatMap, List.mem_flatMap] at member
  obtain ⟨c, inside, encoded⟩ := member
  obtain ⟨low, high⟩ := toNat_of_isAlphanum (word.2 c inside)
  have value : c.toNat = c.val.toNat := rfl
  have small : c.toNat < 256 := by omega
  have single : String.utf8EncodeChar c = [UInt8.ofNat c.toNat] := if_pos (by omega)
  obtain rfl := List.mem_singleton.mp (single ▸ encoded)
  rw [Std.compare_eq_lt, UInt8.lt_iff_toNat_lt, UInt8.toNat_ofNat_of_lt' small]
  exact low.trans_lt' (by decide)

theorem compareParts_eq_compare_bytes (spelled : l.IsSpelled) (spelled' : m.IsSpelled) :
    compareParts l m = compare (bytes l.tag) (bytes m.tag) := by
  have above {l : Locale} (spelled : l.IsSpelled) :
      ∀ part ∈ l.region.map bytes, ∀ b ∈ part, compare 0x2d b = .lt := by
    intro part member
    obtain ⟨region, there, rfl⟩ := Option.map_eq_some_iff.mp member
    exact compare_hyphen_of_isWord (spelled.region region there)
  have held {l : Locale} (spelled : l.IsSpelled) (absent : l.region.map bytes = none) :
      l.variant.map bytes = none := by
    rw [Option.map_eq_none_iff] at absent ⊢
    exact spelled.variant absent
  rw [bytes_tag, bytes_tag, compare_append_append (compare_hyphen_of_isWord spelled.language)
    (compare_hyphen_of_isWord spelled'.language) (head?_behind_append head?_behind)
    (head?_behind_append head?_behind), compare_behind_append_behind (above spelled)
    (above spelled') (held spelled) (held spelled'), compareParts]

/-- Locales that were read compare as their tags do, byte by byte. -/
theorem compare_eq_compare_bytes (spelled : l.IsSpelled) (spelled' : m.IsSpelled) :
    compare l m = compare (bytes l.tag) (bytes m.tag) := by
  rw [compare_eq_compareParts, compareParts_eq_compare_bytes spelled spelled']

/-- An exclamation mark is below the hyphen, but it is in no tag. -/
example : compare (ofLanguage "e!") (ofRegion "e" "US") = .gt ∧
    compare (bytes (ofLanguage "e!").tag) (bytes (ofRegion "e" "US").tag) = .lt := by
  decide +kernel

end Parts

end Locale

open CommandLine (checkText lines listing listingLine)

/-- The locale of every form was read from some tag. -/
def Draft.HasReadLocales (d : Draft) : Prop :=
  ∀ f ∈ d.forms, ∃ tag, Locale.parse tag = .ok f.locale

namespace Registry

variable {d : Draft} {r : Registry} {pair : Pair}

/-- The locales of a pair are listed in ascending order of their tags, and so are the tags in the
brackets of each line of a check. -/
structure ListsInOrder (r : Registry) : Prop where
  locales : ∀ pair, Text.Ascending ((r.locales pair).map Locale.tag)
  check : checkText r =
    lines (("✅ " ++ toString r.documents.size ++ " Document(s), " ++
      toString (listing r).length ++ " Barber(s)") :: (listing r).map listingLine)
  listed : ∀ e ∈ listing r, Text.Ascending (e.2.map Locale.tag)

theorem ascending_tags (spelled : ∀ l ∈ r.locales pair, l.IsSpelled) :
    Text.Ascending ((r.locales pair).map Locale.tag) := by
  refine List.pairwise_map.mpr ((locales_ascending r pair).imp_of_mem ?_)
  intro l m listed listed' less
  rw [← Locale.compare_eq_compare_bytes (spelled l listed) (spelled m listed'), less]

theorem isSpelled_of_mem_locales (built : d.build = .ok r) (read : d.HasReadLocales) :
    ∀ l ∈ r.locales pair, l.IsSpelled := by
  intro l listed
  obtain ⟨f, installed, -, rfl⟩ := (mem_locales_iff built).mp listed
  obtain ⟨tag, given⟩ := read f installed
  exact Locale.isSpelled_of_parse given

theorem listsInOrder_of_build (built : d.build = .ok r) (read : d.HasReadLocales) :
    r.ListsInOrder := by
  have ascending (pair : Pair) : Text.Ascending ((r.locales pair).map Locale.tag) :=
    ascending_tags (isSpelled_of_mem_locales built read)
  refine ⟨ascending, CommandLine.checkText_eq r, ?_⟩
  rintro ⟨pair, locales⟩ listed
  obtain ⟨-, rfl⟩ := (CommandLine.mem_listing built).mp listed
  exact ascending pair

end Registry

theorem Manifest.hasReadLocales_of_install {m : Manifest} {d₀ d : Draft}
    (read : m.HasReadLocales) (installed : m.install d₀ = .ok d) (fresh : d₀.forms = []) :
    d.HasReadLocales := by
  obtain ⟨forms, resolved, rfl⟩ := install_eq_ok_iff.mp installed
  have each : List.Forall₂ (fun f _ => (∃ tag, Locale.parse tag = .ok f.locale) ∧ True)
      forms m.forms := by
    refine ((List.forall₂_and_left _ _).mpr ⟨read, resolved⟩).flip.imp ?_
    rintro f e ⟨⟨tag, given⟩, source, -, rfl⟩
    exact ⟨⟨tag, Locale.parse_eq_ok_iff.mpr given⟩, trivial⟩
  rw [Draft.HasReadLocales, forms_of_install, fresh, List.nil_append]
  exact ((List.forall₂_and_left _ _).mp each).1

namespace CommandLine

variable {t : FileTree} {around : Surroundings} {i : Invocation} {r : Registry}

/-- What is loaded from files has locales that were read. -/
theorem listsInOrder_of_load (loaded : load t.disk around i = .ok r) : r.ListsInOrder := by
  obtain ⟨settings, manifest, loads, made⟩ := exists_loads loaded
  obtain ⟨d, makes⟩ := exists_makes made
  obtain ⟨locale, installed⟩ := makes.installed
  have read := Manifest.hasReadLocales_of_loadFolder loads.gathered
  exact Registry.listsInOrder_of_build makes.built
    (Manifest.hasReadLocales_of_install read installed rfl)

/-- A tree with one manifest, whose forms are in three locales. -/
def tongueTree : FileTree where
  files := Table.ofList [(["templates", "tongues.json"], .text
    ("[[[\"Letter\",[[\"body\"]]]],[[\"Guest\",[[\"name\"]]]],[" ++
      "[\"Guest\",[\"Letter\"],\"eng\",\x7b\"body\":\"\"\x7d]," ++
      "[\"Guest\",[\"Letter\"],\"EN\",\x7b\"body\":\"\"\x7d]," ++
      "[\"Guest\",[\"Letter\"],\"en_us\",\x7b\"body\":\"\"\x7d]]]"))]
  folders := []
  workingDirectory := "/"

end CommandLine

namespace Locale

/-- Locales that were read are in the order of the bytes of their tags, so tags ascend strictly wherever
the locales of a pair are listed, in a registry whose locales were read and in what a check prints. -/
theorem compare_by_tags :
    (∀ tag tag' l m, parse tag = .ok l → parse tag' = .ok m →
      compare l m = compareParts l m ∧
      compare l m = compare (Text.bytes l.tag) (Text.bytes m.tag)) ∧
    (∀ (d : Draft) (r : Registry), d.build = .ok r → d.HasReadLocales → r.ListsInOrder) ∧
    ∀ (t : FileTree) (around : CommandLine.Surroundings) (arguments : List String)
      (config manifests : Option String),
      CommandLine.parse arguments = .ok (.run ⟨config, manifests, .check⟩) →
      (CommandLine.run t.disk around arguments).code = 0 →
      ∃ r : Registry, CommandLine.load t.disk around ⟨config, manifests, .check⟩ = .ok r ∧
        CommandLine.run t.disk around arguments = CommandLine.outcomeOf (.ok (checkText r)) ∧
        r.ListsInOrder := by
  refine ⟨?_, fun d r => Registry.listsInOrder_of_build, ?_⟩
  · intro tag tag' l m read read'
    exact ⟨compare_eq_compareParts l m,
      compare_eq_compare_bytes (isSpelled_of_parse read) (isSpelled_of_parse read')⟩
  · intro t around arguments config manifests asked succeeded
    obtain ⟨r, loaded⟩ := CommandLine.exists_load_of_code asked succeeded
    exact ⟨r, loaded, CommandLine.run_of_load asked loaded,
      CommandLine.listsInOrder_of_load loaded⟩

/-- A region that goes on where another one ends, a draft with forms in two languages, and a check that
lists a language that goes on where another one ends. -/
theorem compare_by_tags_tongues :
    (parse "EN_us-x" = .ok ⟨"en", some "US", some "x"⟩ ∧
      parse "en-usa" = .ok ⟨"en", some "USA", none⟩ ∧
      compare (⟨"en", some "US", some "x"⟩ : Locale) ⟨"en", some "USA", none⟩ =
        compare (Text.bytes "en-US-x") (Text.bytes "en-USA")) ∧
    (Draft.invitations.HasReadLocales ∧
      ∃ r, Draft.invitations.build = .ok r ∧ r.ListsInOrder) ∧
    CommandLine.parse ["check"] = .ok (.run ⟨none, none, .check⟩) ∧
    CommandLine.run CommandLine.tongueTree.disk ⟨none, []⟩ ["check"] = (⟨0,
      "✅ 1 Document(s), 1 Barber(s)\n  Barber<Guest, Letter> [en, en-US, eng]\n",
      ""⟩ : CommandLine.Outcome) ∧
    ∃ r : Registry,
      CommandLine.load CommandLine.tongueTree.disk ⟨none, []⟩ ⟨none, none, .check⟩ = .ok r ∧
      CommandLine.run CommandLine.tongueTree.disk ⟨none, []⟩ ["check"] =
        CommandLine.outcomeOf (.ok (checkText r)) ∧
      r.ListsInOrder := by
  obtain ⟨pairs, registries, checks⟩ := compare_by_tags
  have read : parse "EN_us-x" = .ok ⟨"en", some "US", some "x"⟩ := by decide +kernel
  have read' : parse "en-usa" = .ok ⟨"en", some "USA", none⟩ := by decide +kernel
  have spelled : ∀ f ∈ Draft.invitations.forms, parse f.locale.tag = .ok f.locale := by
    decide +kernel
  have readLocales : Draft.invitations.HasReadLocales :=
    fun f installed => ⟨_, spelled f installed⟩
  obtain ⟨r, built⟩ := Registry.exists_of_toBool_build (d := Draft.invitations) (by cbv)
  have asked : CommandLine.parse ["check"] = .ok (.run ⟨none, none, .check⟩) := by decide +kernel
  have printed : CommandLine.run CommandLine.tongueTree.disk ⟨none, []⟩ ["check"] = (⟨0,
      "✅ 1 Document(s), 1 Barber(s)\n  Barber<Guest, Letter> [en, en-US, eng]\n",
      ""⟩ : CommandLine.Outcome) := by
    -- The outcome of the run stands under the identity monad, where no instance is found for it.
    exact @of_decide_eq_true _ (CommandLine.instDecidableEqOutcome _ _) (by decide +kernel)
  have succeeded : (CommandLine.run CommandLine.tongueTree.disk ⟨none, []⟩ ["check"]).code = 0 := by
    rw [printed]
  exact ⟨⟨read, read', (pairs _ _ _ _ read read').2⟩,
    ⟨readLocales, r, built, registries _ r built readLocales⟩, asked, printed,
    checks _ _ _ _ _ asked succeeded⟩

end Locale
end Letterbook
