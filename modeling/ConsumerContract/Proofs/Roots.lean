import ConsumerContract.Proofs.Exactness

/-!
# A resolution does not depend on its root

Every step of a walk puts a segment behind the path of the place where it is and never looks at that path,
and variants are resolved from a root of their own. So what is recorded below one root is recorded below
every other, at the same segments: `Template.rules_below`. Texts with a common beginning are told apart and
ordered by what follows it; hence the same entries take the place of others, and the order of the
dictionaries stays, whatever the root.
-/

namespace ConsumerContract

/-- The path of a parent is the start of all paths below it. -/
theorem Path.render_eq_append (parent : String) (segments : List Segment) :
    render parent segments = parent ++ render "" segments := by
  apply String.toList_injective
  rw [String.toList_append, toList_render, toList_render]
  simp

/-- The entries of a walk from some path are those of a walk from nowhere, moved below the path. -/
theorem Position.entries_eq_below {α : Type} (here : String) (value : Matcher → Option α)
    (positions : List Position) :
    entries here value positions = Dict.below here (entries "" value positions) := by
  rw [entries, entries, Dict.below, List.map_flatMap]
  congr 1
  funext p
  rw [Path.render_eq_append]
  cases value p.matcher <;> rfl

namespace Template

/-- The rules below a root are those below the empty path, with the root before every path. -/
theorem rules_below (root : String) (t : Template) :
    (t.resolveUnchecked root).value.rules = Dict.below root (t.resolveUnchecked "").value.rules := by
  rw [rules_resolveUnchecked, rules_resolveUnchecked, Position.entries_eq_below root, Dict.ofList_below]

/-- The generators below a root are those below the empty path, with the root before every path. -/
theorem generators_below (root : String) (t : Template) :
    (t.resolveUnchecked root).value.generators =
      Dict.below root (t.resolveUnchecked "").value.generators := by
  rw [generators_resolveUnchecked, generators_resolveUnchecked, Position.entries_eq_below root,
    Dict.ofList_below]

/-- What stands below one root stands below every other. -/
theorem get?_rules_append (t : Template) (here there rest : String) :
    Dict.get? (here ++ rest) (t.resolveUnchecked here).value.rules =
      Dict.get? (there ++ rest) (t.resolveUnchecked there).value.rules := by
  rw [t.rules_below here, t.rules_below there, Dict.get?_below, Dict.get?_below]

/-- Every path with a rule begins with the root. -/
theorem exists_append_of_get?_rules {t : Template} {here path : String} {rule : Rule}
    (h : Dict.get? path (t.resolveUnchecked here).value.rules = some rule) :
    ∃ rest, path = here ++ rest := by
  rw [t.rules_below here] at h
  exact Dict.exists_append_of_get?_below h

end Template

/-- The entries below `here` are those below `there`, one for one, with one root in place of the other. -/
def Dict.Exchanged {α : Type} (here there : String) (d e : List (String × α)) : Prop :=
  ∀ path a, Dict.get? path d = some a ↔
    ∃ rest, path = here ++ rest ∧ Dict.get? (there ++ rest) e = some a

/-- Moving a dictionary below two paths makes two that are exchanged. -/
theorem Dict.exchanged_below {α : Type} (here there : String) (d : List (String × α)) :
    Exchanged here there (below here d) (below there d) := by
  intro path a
  constructor
  · intro found
    obtain ⟨rest, rfl⟩ := exists_append_of_get?_below found
    rw [get?_below] at found
    exact ⟨rest, rfl, by rw [get?_below, found]⟩
  · rintro ⟨rest, rfl, found⟩
    rw [get?_below] at found ⊢
    exact found

/-- One list of rules and one of generators, with paths that start at the template, serve for all roots; so
any two resolutions of the template have one body, and the same rules and generators at the same places. -/
theorem Template.resolveUnchecked_anywhere (t : Template) :
    (∃ (rules : Rules) (generators : Generators), ∀ root,
      (t.resolveUnchecked root).value = ⟨t.sample, Dict.below root rules, Dict.below root generators⟩) ∧
    ∀ here there,
      let a := (t.resolveUnchecked here).value
      let b := (t.resolveUnchecked there).value
      a.body = b.body ∧ Dict.Exchanged here there a.rules b.rules ∧
        Dict.Exchanged here there a.generators b.generators := by
  have anywhere (root : String) : (t.resolveUnchecked root).value =
      ⟨t.sample, Dict.below root (t.resolveUnchecked "").value.rules,
        Dict.below root (t.resolveUnchecked "").value.generators⟩ := by
    rw [← t.rules_below root, ← t.generators_below root, ← t.walk_fst root]
    rfl
  refine ⟨⟨_, _, anywhere⟩, ?_⟩
  intro here there a b
  have first : a = _ := anywhere here
  have second : b = _ := anywhere there
  rw [first, second]
  exact ⟨rfl, Dict.exchanged_below here there _, Dict.exchanged_below here there _⟩

/-- Names that add no segment: the fields share the root, and the later of them decides. -/
example : ((Template.object [("", .matcher (.like (.literal .null))),
    ("0", .matcher (.regex "a" "[a-z]"))]).resolveUnchecked "$.body").value.rules =
      Dict.below "$.body" [("", .regex "[a-z]")] := by
  rfl

end ConsumerContract
