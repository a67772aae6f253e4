import AnnotatedValues.Proofs.Annotation.Scan
import AnnotatedValues.Proofs.Graph.Samples
import AnnotatedValues.Proofs.TypeExpr.Written

/-!
# Names and texts of a graph

The names in a graph are names of rows and of their types, and what it says in
words is on a single line.  Samples alone may hold line feeds.
-/

namespace AnnotatedValues

open Annotation Annotation.Scan Fallible

/-! ## Names in type expressions -/

namespace TypeExpr

theorem isMemberChar_of_isNameChar {c : Char} (h : isNameChar c = true) :
    isMemberChar c = true := by
  have hmarks : ∀ d ∈ ['_', '-', '.'], isMemberChar d = true :=
    List.all_eq_true.mp (by decide)
  simp only [isNameChar, Bool.or_eq_true, beq_iff_eq] at h
  rcases h with ((h | h) | h) | h
  · simp [isMemberChar, Text.isWord_of_isAlphanum h]
  · exact hmarks c (by simp [h])
  · exact hmarks c (by simp [h])
  · exact hmarks c (by simp [h])

/-- The name inside an expression is one. -/
theorem isName_of_written {cs : List Char} {t : TypeExpr} (h : Written cs t) : IsName t.base := by
  induction h with
  | blank _ _ ih | pointer _ ih | array _ ih | map _ _ ih => exact ih
  | name _ hname => exact isName_ofList fun c hc => isMemberChar_of_isNameChar (hname c hc)

theorem isName_of_ofBlock {block : String} {t : TypeExpr} (h : ofBlock block = .ok t) :
    IsName t.base := by
  rw [ofBlock, mapError_eq_ok_iff, parse, parseFrom_eq_ok_iff] at h
  exact isName_of_written h

end TypeExpr

/-! ## Graphs -/

structure Member.SingleLine (m : Member) : Prop where
  comment : '\n' ∉ m.comment.toList
  default : ∀ d, m.default? = some d → d.source = .annotated → '\n' ∉ d.text.toList
  type : ∀ t, m.type? = some t → IsName t.base

theorem Member.singleLine_blank : Member.blank.SingleLine where
  comment := List.not_mem_nil
  default := by
    intro d h
    cases h
  type := by
    intro t h
    cases h

structure Node.SingleLine (n : Node) : Prop where
  name : IsName n.name
  doc : '\n' ∉ n.doc.toList
  member : n.member.SingleLine

structure Field.SingleLine (f : Field) : Prop where
  name : IsName f.name
  member : f.member.SingleLine

namespace TypeGraph

/-- All nodes and fields. -/
structure SingleLine (g : TypeGraph) : Prop where
  nodes : ∀ e ∈ g.nodes, e.2.SingleLine
  fields : ∀ f ∈ g.fields, f.SingleLine

namespace SingleLine

variable {g : TypeGraph} {row : Row}

theorem empty : SingleLine TypeGraph.empty where
  nodes := by
    intro e h
    cases h
  fields := by
    intro f h
    cases h

theorem ensureNode (h : g.SingleLine) {name : String} (hname : IsName name) :
    (g.ensureNode name).SingleLine := by
  unfold TypeGraph.ensureNode
  split
  · exact h
  · refine ⟨fun e he => ?_, h.fields⟩
    rcases List.mem_append.mp he with hold | hnew
    · exact h.nodes e hold
    · rw [List.mem_singleton.mp hnew]
      exact ⟨hname, List.not_mem_nil, Member.singleLine_blank⟩

theorem ensureField (h : g.SingleLine) (owner : String) {name : String} (hname : IsName name) :
    (g.ensureField owner name).SingleLine := by
  unfold TypeGraph.ensureField
  split
  · exact h
  · refine ⟨h.nodes, fun f hf => ?_⟩
    rcases List.mem_append.mp hf with hold | hnew
    · exact h.fields f hold
    · rw [List.mem_singleton.mp hnew]
      exact ⟨hname, Member.singleLine_blank⟩

theorem updateNode (h : g.SingleLine) (key : String) {f : Node → Node}
    (hf : ∀ n : Node, n.SingleLine → (f n).SingleLine) : (g.updateNode key f).SingleLine := by
  refine ⟨fun e he => ?_, h.fields⟩
  rw [nodes_updateNode, modifyNode_eq] at he
  rcases mem_modifyFirst he with hold | ⟨old, hold, hnew⟩
  · exact h.nodes e hold
  · rw [hnew]
    exact hf old.2 (h.nodes old hold)

theorem ensureParam (h : g.SingleLine) (key : String) : (g.ensureParam key).SingleLine := by
  unfold TypeGraph.ensureParam
  split
  · exact h
  · exact ⟨h.nodes, h.fields⟩

theorem updateMember (h : g.SingleLine) (slot : Slot) {f : Member → Member}
    (hf : ∀ m : Member, m.SingleLine → (f m).SingleLine) : (g.updateMember slot f).SingleLine := by
  cases slot with
  | node key => exact h.updateNode key fun n hn => ⟨hn.name, hn.doc, hf _ hn.member⟩
  | field owner name =>
      refine ⟨h.nodes, fun x hx => ?_⟩
      rw [TypeGraph.updateMember, modifyField_eq] at hx
      rcases mem_modifyFirst hx with hold | ⟨old, hold, hnew⟩
      · exact h.fields x hold
      · rw [hnew]
        exact ⟨(h.fields old hold).name, hf _ (h.fields old hold).member⟩

/-! ## Rows -/

theorem rowMember (hrow : Scan.SingleLine row) {type : TypeExpr} (htype : IsName type.base)
    {m : Member} (hm : m.SingleLine) : (rowMember row type m).SingleLine where
  comment := hrow.description
  default := by
    intro d hd hsource
    rw [TypeGraph.rowMember] at hd
    dsimp only at hd
    split at hd
    · exact hm.default d hd hsource
    · rw [← Option.some.inj hd]
      exact hrow.default
  type := by
    intro t ht
    rw [← Option.some.inj ht]
    exact htype

theorem withMember (h : g.SingleLine) (hrow : Scan.SingleLine row) (slot : Slot) {type : TypeExpr}
    (htype : row.type? = some type) : (g.withMember slot row type).SingleLine := by
  have hname := TypeExpr.isName_of_ofBlock (Row.type?_eq_some_iff.mp htype)
  have hmember := h.updateMember slot fun m hm => rowMember hrow hname hm
  exact mention_induction hmember (hmember.ensureNode hname)

theorem declare (h : g.SingleLine) (hrow : Scan.SingleLine row) {g' : TypeGraph}
    (hg' : declare g row = .ok g') : g'.SingleLine := by
  have hname : ∀ {name rest}, row.path = name :: rest → IsName name :=
    fun hpath => hrow.path _ (hpath ▸ List.mem_cons_self)
  cases declare_eq_ok_iff.mp hg' with
  | nothing => exact h
  | @param name _ _ _ hpath htype =>
      have hnode := (h.ensureNode (hname hpath)).updateNode (keyOf name)
        (f := fun n => { n with isParam := true, name }) fun n hn =>
          ⟨hname hpath, hn.doc, hn.member⟩
      exact (hnode.ensureParam _).withMember hrow _ htype
  | typedef _ hpath | enum _ hpath =>
      exact (h.ensureNode (hname hpath)).updateNode _ fun n hn =>
        ⟨hn.name, hrow.description, hn.member⟩

theorem fieldParent {declared : TypeGraph} (hdeclared : declared.SingleLine) {parent : String}
    (hparent : IsName parent) (g : TypeGraph) : IsName (fieldParent declared g parent) := by
  unfold TypeGraph.fieldParent
  split
  · exact hparent
  · cases halias : declared.alias? (keyOf parent) with
    | none => exact hparent
    | some base =>
        obtain ⟨node, type, hnode, -, htype, -, -, hbase⟩ := alias?_eq_some_iff.mp halias
        rw [Option.getD_some, ← hbase]
        exact (hdeclared.nodes _ (mem_nodes_of_node? hnode)).member.type type htype

theorem place {declared : TypeGraph} (hdeclared : declared.SingleLine) (h : g.SingleLine)
    (hrow : Scan.SingleLine row) {placed : List Placement} {state' : TypeGraph × List Placement}
    (hstate' : place declared (g, placed) row = .ok state') : state'.1.SingleLine := by
  cases place_eq_ok_iff.mp hstate' with
  | nothing => exact h
  | @field parent name _ hpath htype =>
      have hnames := (Row.fieldPath?_eq_some_iff.mp hpath).2
      have hparent : IsName parent := hrow.path _ (hnames ▸ List.mem_cons_self)
      have hname : IsName name :=
        hrow.path _ (hnames ▸ List.mem_cons_of_mem _ List.mem_cons_self)
      exact ((h.ensureNode (fieldParent hdeclared hparent g)).ensureField _ hname).withMember hrow _
        htype

/-- Graphs of such rows are so. -/
theorem build {rows : List Row} (hrows : ∀ row ∈ rows, Scan.SingleLine row)
    (hg : build rows = .ok g) : g.SingleLine := by
  obtain ⟨declared, hdeclared, hrest⟩ := bind_eq_ok_iff.mp hg
  obtain ⟨state, hplaced, hdiagnosed⟩ := bind_eq_ok_iff.mp hrest
  have hfirst : declared.SingleLine :=
    foldlM_induction_of_mem (fun hrow h hstep => h.declare (hrows _ hrow) hstep) empty hdeclared
  have hsecond : state.1.SingleLine :=
    foldlM_induction_of_mem (motive := fun s : TypeGraph × List Placement => s.1.SingleLine)
      (fun hrow h hstep => place hfirst h (hrows _ hrow) hstep) hfirst hplaced
  rw [pure_eq_ok_iff] at hdiagnosed
  subst hdiagnosed
  exact ⟨hsecond.nodes, hsecond.fields⟩

/-! ## Samples -/

theorem setSample (h : g.SingleLine) (slot : Slot) (text : String) :
    (setSample slot text g).SingleLine := by
  refine h.updateMember slot fun m hm => ?_
  split
  · exact hm
  · refine ⟨hm.comment, fun d hd hsource => ?_, hm.type⟩
    rw [← Option.some.inj hd] at hsource
    cases hsource

theorem populate (h : g.SingleLine) (values : Document) : (g.populate values).SingleLine :=
  sampleEntries_induction (motive := SingleLine) (fun slot text _ hg => hg.setSample slot text)
    [] none g h values.entries

end SingleLine

end TypeGraph

end AnnotatedValues
