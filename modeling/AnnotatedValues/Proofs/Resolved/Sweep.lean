import AnnotatedValues.Proofs.Graph.Members
import AnnotatedValues.Proofs.Resolved.Resolution

/-!
# The sweep for undefined names

A type fails to resolve at its name, which is then neither built in nor that of
a kind of resources, and whose node has neither fields nor values.  Of the names
at which types fail the sweep keeps the first one of each key, and sorts them.
-/

namespace AnnotatedValues.Resolver

open Fallible

variable {r : Resolver} {type : TypeExpr} {types : List TypeExpr} {e : Unresolved}
  {seen : List String} {name key : String}

/-! ## Types that do not resolve -/

theorem resolve_eq_error_iff_resolveName :
    r.resolve type = .error e ↔ r.resolveName type.base = .error e := by
  induction type with
  | pointer inner ih | array inner ih | map inner ih =>
      rw [resolve, map_eq_error_iff]
      exact ih
  | named name => exact Iff.rfl

/-- Only the name of an expression can be undefined. -/
theorem eq_base_of_resolve_eq_error (h : r.resolve type = .error e) :
    e.name = type.base ∧ Builtin.isName type.base = false := by
  rw [resolve_eq_error_iff_resolveName, resolveName] at h
  split at h
  · cases h
  · rename_i hbuiltin
    split at h
    · cases h
    · split at h
      · cases h
      · cases h
        exact ⟨rfl, builtin?_eq_none_iff.mp hbuiltin⟩

/-- It is if the name needs a declaration and its node has neither fields nor values. -/
theorem resolve_eq_error_iff (hg : r.graph.WellFormed) :
    r.resolve type = .error e ↔ e.name = type.base ∧ Builtin.isName type.base = false ∧
      Builtin.isContextual type.base = false ∧ r.graph.hasFields (keyOf type.base) = false ∧
        r.enumRef? (keyOf type.base) = none := by
  rw [resolve_eq_error_iff_resolveName, resolveName_eq hg]
  cases hbuiltin : builtin? type.base with
  | some t =>
      have hname := isName_of_builtin? hbuiltin
      simp [hname]
  | none =>
      have hname := builtin?_eq_none_iff.mp hbuiltin
      obtain ⟨undefined⟩ := e
      cases Builtin.isContextual type.base <;> cases r.graph.hasFields (keyOf type.base) <;>
        cases r.enumRef? (keyOf type.base) <;> simp [hname, eq_comm]

/-! ## One name for each key -/

/-- A name that is kept is one at which a type fails. -/
theorem exists_type_of_mem_unresolvedNames (h : name ∈ r.unresolvedNames types seen) :
    ∃ type ∈ types, r.resolve type = .error ⟨name⟩ := by
  induction types generalizing seen with
  | nil => cases h
  | cons type types ih =>
      rw [List.exists_mem_cons_iff]
      rw [unresolvedNames] at h
      split at h
      · exact Or.inr (ih h)
      · rename_i undefined hresolve
        split at h
        · exact Or.inr (ih h)
        · rcases List.mem_cons.mp h with rfl | hrest
          · exact Or.inl hresolve
          · exact Or.inr (ih hrest)

/-- Each key of such a name is kept that is not seen before. -/
theorem mem_keys_unresolvedNames_iff :
    key ∈ (r.unresolvedNames types seen).map keyOf ↔
      key ∉ seen ∧ ∃ type ∈ types, ∃ e, r.resolve type = .error e ∧ keyOf e.name = key := by
  induction types generalizing seen with
  | nil => simp [unresolvedNames]
  | cons type types ih =>
      rw [unresolvedNames, List.exists_mem_cons_iff]
      cases hresolve : r.resolve type with
      | ok t => simpa using ih
      | error e =>
          dsimp only
          split
          · rename_i hseen
            rw [List.contains_iff_mem] at hseen
            rw [ih]
            refine and_congr_right fun hnew => ⟨Or.inr, ?_⟩
            rintro (⟨_, hfirst, rfl⟩ | hrest)
            · cases hfirst
              exact absurd hseen hnew
            · exact hrest
          · rename_i hnew
            rw [List.contains_iff_mem] at hnew
            rw [List.map_cons, List.mem_cons, ih, List.mem_cons, not_or]
            constructor
            · rintro (rfl | ⟨⟨-, hnotSeen⟩, hrest⟩)
              · exact ⟨hnew, Or.inl ⟨e, rfl, rfl⟩⟩
              · exact ⟨hnotSeen, Or.inr hrest⟩
            · rintro ⟨hnotSeen, ⟨_, hfirst, rfl⟩ | hrest⟩
              · cases hfirst
                exact Or.inl rfl
              · by_cases hkey : key = keyOf e.name
                · exact Or.inl hkey
                · exact Or.inr ⟨⟨hkey, hnotSeen⟩, hrest⟩

theorem nodup_keys_unresolvedNames (types : List TypeExpr) (seen : List String) :
    ((r.unresolvedNames types seen).map keyOf).Nodup := by
  induction types generalizing seen with
  | nil => exact List.nodup_nil
  | cons type types ih =>
      rw [unresolvedNames]
      split
      · exact ih seen
      · split
        · exact ih seen
        · refine List.nodup_cons.mpr ⟨fun hmem => ?_, ih _⟩
          exact (mem_keys_unresolvedNames_iff.mp hmem).1 List.mem_cons_self

/-! ## The names in their order -/

theorem perm_undefinedTypes (r : Resolver) :
    r.undefinedTypes.Perm (r.unresolvedNames r.graph.memberTypes []) :=
  List.mergeSort_perm _ _

theorem nodup_keys_undefinedTypes (r : Resolver) : (r.undefinedTypes.map keyOf).Nodup :=
  (r.perm_undefinedTypes.map keyOf).nodup_iff.mpr (nodup_keys_unresolvedNames _ _)

theorem pairwise_undefinedTypes (r : Resolver) : r.undefinedTypes.Pairwise (· < ·) := by
  have hnodup : ((r.unresolvedNames r.graph.memberTypes []).map id).Nodup := by
    rw [List.map_id]
    exact (nodup_keys_unresolvedNames _ _).of_map
  exact Keyed.pairwise_lt_mergeSort id hnodup

end AnnotatedValues.Resolver
