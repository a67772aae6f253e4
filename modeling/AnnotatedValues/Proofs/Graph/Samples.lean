import AnnotatedValues.Proofs.Graph.Members
import AnnotatedValues.Proofs.Graph.WellFormed

/-!
# Samples change defaults only

All that sampling does to a graph is a sequence of single samples, and a single
sample changes nothing but a default.  The graph without its defaults is
therefore that of the rows, before, between and after any samples.
-/

namespace AnnotatedValues

/-! ## The graph without its defaults -/

def Member.bare (m : Member) : Member := { m with default? := none }

def Node.bare (n : Node) : Node := { n with member := n.member.bare }

def Field.bare (f : Field) : Field := { f with member := f.member.bare }

namespace TypeGraph

def bare (g : TypeGraph) : TypeGraph :=
  { g with nodes := g.nodes.map fun e => (e.1, e.2.bare), fields := g.fields.map Field.bare }

theorem bare_eq_mapMembers (g : TypeGraph) : g.bare = g.mapMembers Member.bare := rfl

theorem param?_bare (g : TypeGraph) (name : String) : g.bare.param? name = g.param? name := by
  rw [bare_eq_mapMembers, param?_mapMembers]

theorem member?_bare (g : TypeGraph) (slot : Slot) :
    g.bare.member? slot = (g.member? slot).map Member.bare :=
  member?_mapMembers Member.bare g slot

theorem slotOf?_bare (g : TypeGraph) (owner : Option String) (key : String) :
    g.bare.slotOf? owner key = g.slotOf? owner key := by
  rw [bare_eq_mapMembers, slotOf?_mapMembers]

theorem bare_setSample (slot : Slot) (text : String) (g : TypeGraph) :
    (setSample slot text g).bare = g.bare := by
  refine mapMembers_updateMember Member.bare g slot fun m => ?_
  split <;> rfl

theorem WellFormed.setSample {g : TypeGraph} (h : g.WellFormed) (slot : Slot) (text : String) :
    (setSample slot text g).WellFormed := by
  refine h.updateMember slot fun m => ?_
  split <;> rfl

/-! ## Sampling as a sequence of single samples -/

mutual

/-- What single samples keep, sampling a value keeps, -/
theorem sampleValue_induction {motive : TypeGraph → Prop}
    (step : ∀ slot text g, motive g → motive (setSample slot text g)) (path : List String)
    (slot : Slot) (g : TypeGraph) (hg : motive g) : (d : Document) → motive (sampleValue path slot g d)
  | .null => hg
  | .bool b => step slot _ g hg
  | .number n => step slot _ g hg
  | .string s => step slot _ g hg
  | .array items => step slot _ g hg
  | .object entries => by
      rw [sampleValue]
      refine step slot _ _ ?_
      split
      · rename_i owner _
        split
        · exact hg
        · exact sampleEntries_induction step (owner :: path) (some owner) g hg entries
      · exact hg
termination_by structural d => d

/-- and so does sampling the entries of an object. -/
theorem sampleEntries_induction {motive : TypeGraph → Prop}
    (step : ∀ slot text g, motive g → motive (setSample slot text g)) (path : List String)
    (owner : Option String) (g : TypeGraph) (hg : motive g) :
    (entries : List (String × Document)) → motive (sampleEntries path owner g entries)
  | [] => hg
  | (key, value) :: entries => by
      rw [sampleEntries]
      refine sampleEntries_induction step path owner _ ?_ entries
      split
      · rename_i slot _
        exact sampleValue_induction step path slot g hg value
      · exact hg
termination_by structural entries => entries

end

theorem bare_sampleValue (path : List String) (slot : Slot) (g : TypeGraph) (d : Document) :
    (sampleValue path slot g d).bare = g.bare :=
  sampleValue_induction (motive := fun g' => g'.bare = g.bare)
    (fun slot text g' h => (bare_setSample slot text g').trans h) path slot g rfl d

theorem bare_sampleEntries (path : List String) (owner : Option String) (g : TypeGraph)
    (entries : List (String × Document)) : (sampleEntries path owner g entries).bare = g.bare :=
  sampleEntries_induction (motive := fun g' => g'.bare = g.bare)
    (fun slot text g' h => (bare_setSample slot text g').trans h) path owner g rfl entries

theorem bare_populate (g : TypeGraph) (values : Document) : (g.populate values).bare = g.bare :=
  bare_sampleEntries [] none g values.entries

/-! ## Built graphs -/

/-- A graph that rows were built into, with any samples taken since. -/
inductive Built : TypeGraph → Prop where
  | rows {rows : List Annotation.Row} {g : TypeGraph} (hg : build rows = .ok g) : Built g
  | sample (slot : Slot) (text : String) {g : TypeGraph} (hg : Built g) :
      Built (setSample slot text g)

namespace Built

variable {g : TypeGraph}

theorem wellFormed (hg : g.Built) : g.WellFormed := by
  induction hg with
  | rows hg => exact WellFormed.build hg
  | sample slot text _ ih => exact ih.setSample slot text

theorem populate (hg : g.Built) (values : Document) : (g.populate values).Built :=
  sampleEntries_induction (motive := Built) (fun slot text _ h => h.sample slot text) [] none g hg
    values.entries

end Built

end TypeGraph

end AnnotatedValues
