import Letterbook.Proofs.Lookup

/-! Requests for a locale. A chain of locales grows by one locale at a time, and one that is there
already is not tried twice; so a request is answered by the form in its own locale, or else in its
language, or else in the default locale, and it fails only if there is none of the three. -/
namespace Letterbook

namespace Locale

variable {chain : List Locale} {next : Locale}

/-- What is tried for a request: the locale itself, its language and the default, each once and in
this order. -/
structure Tries (requested fallback : Locale) (tried : List Locale) : Prop where
  first : tried.head? = some requested
  nodup : tried.Nodup
  mem_iff : ∀ l, l ∈ tried ↔ l = requested ∨ l = requested.languageOnly ∨ l = fallback
  ordered : tried.Sublist [requested, requested.languageOnly, fallback]

end Locale

namespace Binding

variable {b : Binding} {requested : Locale} {p : PreparedForm} {u : Unresolved}

/-- How requests for one locale are answered from forms by locale: by the most specific form that
there is, which is a form for the locale it was found under. -/
structure Answers (b : Binding) (held? : Locale → Option PreparedForm)
    (requested fallback : Locale) : Prop where
  itself : ∀ p, held? requested = some p → b.resolve requested = .ok p ∧ p.locale = requested
  language : ∀ p, held? requested = none → held? requested.languageOnly = some p →
    b.resolve requested = .ok p ∧ p.locale = requested.languageOnly
  default : ∀ p, held? requested = none → held? requested.languageOnly = none →
    held? fallback = some p → b.resolve requested = .ok p ∧ p.locale = fallback
  fails_iff : (∃ u, b.resolve requested = .error u) ↔ held? requested = none ∧
    held? requested.languageOnly = none ∧ held? fallback = none
  failure : ∀ u, b.resolve requested = .error u →
    u.pair = b.pair ∧ u.requested = requested ∧ Locale.Tries requested fallback u.tried

end Binding

namespace Registry

variable {d : Draft} {r : Registry} {pair : Pair}

end Registry
end Letterbook
