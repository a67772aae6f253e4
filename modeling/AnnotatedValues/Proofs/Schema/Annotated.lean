import AnnotatedValues.Proofs.Document.Json
import AnnotatedValues.Proofs.Parameters
import AnnotatedValues.Proofs.Resolved.Equivalence
import AnnotatedValues.Proofs.Schema.Default
import AnnotatedValues.Proofs.Text.Lines
import Mathlib.Data.List.TakeWhile

/-!
# Annotated defaults in the schema

The schema gives a parameter that is written as a string the text behind its
name, without the quotes.  Quotes are only taken off, and a literal in double
quotes ends at the next of them: what a JSON string escapes does not come back.
A string that is written as JSON is therefore the default exactly if nothing in
it is escaped.
-/

namespace AnnotatedValues

open Annotation Fallible

/-! ## Defaults of complete resolvers -/

namespace Resolver

variable {r : Resolver} {t : Resolved}

/-- A parameter that is written as a string and has a default has this in the values schema. -/
theorem Complete.exists_native_default (hr : r.Complete) {name key : String}
    (hkey : r.graph.param? name = some key) (ht : r.resolveSlot (.node key) = .ok t)
    (hstring : t.isStringLike = true) {text : DefaultText}
    (htext : r.graph.default? (.node key) = some text) (source declarations : String) :
    ∃ d, SchemaCompiler.native source declarations r = .ok d ∧
      d.default? name = some (.string (unquoted text.text)) := by
  obtain ⟨s, hs, hdefault⟩ := exists_paramSchema_default ht hstring htext
  obtain ⟨d, hd, hproperty⟩ := hr.exists_native_property hkey hs source declarations
  refine ⟨d, hd, ?_⟩
  rw [ResourceDefinition.default?_eq, hproperty]
  exact hdefault

end Resolver

/-! ## Quoted literals -/

namespace Annotation

open Text

theorem splitBehind?_of_mem {quote : Char} {cs : List Char} (h : quote ∈ cs) :
    splitBehind? quote cs =
      some (cs.takeWhile (· != quote) ++ [quote], (cs.dropWhile (· != quote)).tail) := by
  induction cs with
  | nil => cases h
  | cons c cs ih =>
      by_cases hc : c = quote
      · subst hc
        simp [splitBehind?]
      · have hrest : quote ∈ cs := (List.mem_cons.mp h).resolve_left fun heq => hc heq.symm
        simp [splitBehind?, hc, ih hrest, prepend]

/-- What a JSON string literal holds before its second quotation mark, -/
def quotedStart (s : String) : List Char := (Json.escape s.toList).takeWhile (· != '"')

/-- and what it holds behind it. -/
def quotedRest (s : String) : List Char :=
  ((Json.escape s.toList ++ ['"']).dropWhile (· != '"')).tail

theorem takeLiteral?_quoted (s : String) :
    takeLiteral? (Json.quoted s) = some ('"' :: (quotedStart s ++ ['"']), quotedRest s) := by
  have hmem : '"' ∈ Json.escape s.toList ++ ['"'] :=
    List.mem_append_right _ List.mem_cons_self
  have hstart : (Json.escape s.toList ++ ['"']).takeWhile (· != '"') = quotedStart s := by
    rw [List.takeWhile_append]
    split
    · rename_i hall
      rw [quotedStart, (List.takeWhile_prefix _).eq_of_length hall]
      simp
    · rfl
  change (splitBehind? '"' (Json.escape s.toList ++ ['"'])).map (prepend '"') = _
  rw [splitBehind?_of_mem hmem, hstart]
  rfl

/-- The first quotation mark ends a literal of the string exactly if nothing in it is escaped. -/
theorem quotedStart_eq_iff (s : String) :
    quotedStart s = s.toList ↔ ∀ c ∈ s.toList, Json.IsPlain c := by
  have hwhole : '"' ∉ s.toList → quotedStart s = Json.escape s.toList := by
    intro hquote
    refine List.takeWhile_eq_self_iff.mpr fun c hc => ?_
    rw [bne_iff_ne]
    rintro rfl
    exact hquote (Json.quote_mem_of_mem_escape hc)
  constructor
  · intro h
    have hquote : '"' ∉ s.toList := by
      intro hmem
      rw [← h] at hmem
      exact absurd (List.mem_takeWhile_imp hmem) (by decide)
    rw [hwhole hquote] at h
    exact (Json.escape_eq_self_iff _).mp h
  · intro h
    rw [hwhole fun hmem => (h _ hmem).1 rfl]
    exact (Json.escape_eq_self_iff _).mpr h

theorem quotedRest_eq_nil {s : String} (h : ∀ c ∈ s.toList, Json.IsPlain c) :
    quotedRest s = [] := by
  have hall : ∀ c ∈ s.toList, (c != '"') = true := fun c hc => bne_iff_ne.mpr (h c hc).1
  rw [quotedRest, (Json.escape_eq_self_iff _).mpr h, List.dropWhile_append_of_pos hall]
  rfl

theorem unquote_quotedStart (s : String) :
    unquote ('"' :: (quotedStart s ++ ['"'])) = quotedStart s := by
  have hbetween : isBetween '"' ('"' :: (quotedStart s ++ ['"'])) = true := by
    simp [isBetween, List.getLast?_cons]
  rw [unquote, trim_cons_append (by decide) (by decide), hbetween, Bool.true_or, if_pos rfl,
    List.tail_cons, List.dropLast_concat]

/-! ## The line of a quoted default -/

/-- A line that gives a parameter `p` the JSON literal of a string as its default. -/
def quotedDefault (s : String) : List Char := "## @param \x7bstring\x7d p=".toList ++ Json.quoted s

theorem member?_quoted (s : String) :
    member? ("\x7bstring\x7d p=".toList ++ Json.quoted s) =
      (description? (quotedRest s)).map
        (Member.mk "p".toList false "string".toList ('"' :: (quotedStart s ++ ['"']))) := by
  have hblock : takeBraced? ("\x7bstring\x7d p=".toList ++ Json.quoted s) =
      some ("string".toList, ' ' :: 'p' :: '=' :: Json.quoted s) := rfl
  have hnone : nameFirst? ("\x7bstring\x7d p=".toList ++ Json.quoted s) = none := rfl
  rw [member?, hnone, Option.or_none]
  exact blockFirst?_eq hblock rfl rfl (takeLiteral?_quoted s)

theorem ofLine?_quotedDefault (s : String) :
    Directive.ofLine? (quotedDefault s) =
      (member? ("\x7bstring\x7d p=".toList ++ Json.quoted s)).map .param := by
  have hquote : isBlank '"' = false := by decide
  have hhash : isBlank '#' = false := by decide
  have hbrace : isBlank '\x7b' = false := by decide
  have htrim : trim (quotedDefault s) = quotedDefault s :=
    trim_cons_append hhash hquote ("# @param \x7bstring\x7d p=\"".toList ++ Json.escape s.toList)
  have hword : trim (' ' :: ("\x7bstring\x7d p=".toList ++ Json.quoted s)) =
      "\x7bstring\x7d p=".toList ++ Json.quoted s :=
    trim_cons_append hbrace hquote ("string\x7d p=\"".toList ++ Json.escape s.toList)
  rw [Directive.ofLine?, htrim, ← hword]
  rfl

/-- The row of the line, with what stands behind the literal as description. -/
def quotedRow (s : String) (description : List Char) : Row where
  kind := .param
  path := ["p"]
  typeBlock := "string"
  choices := []
  default := String.ofList ('"' :: (quotedStart s ++ ['"']))
  description := String.ofList description
  optional := false
  line := 1

/-- The line is prose if what stands behind the literal is no description. -/
theorem rows_quotedDefault (s : String) :
    (Scan.ofText (quotedDefault s)).rows =
      ((description? (quotedRest s)).map (quotedRow s)).toList := by
  have hlead : '\n' ∉ "## @param \x7bstring\x7d p=".toList := by decide
  have hline : '\n' ∉ quotedDefault s := fun h =>
    (List.mem_append.mp h).elim hlead (Json.newline_not_mem_quoted s)
  have hblock : String.ofList (trim "string".toList) = "string" := by decide
  have hchoices : (blockChoices "string".toList).map String.ofList = [] := by decide
  rw [Scan.ofText, lines_eq_singleton hline, Scan.run, Scan.run, Scan.step, ofLine?_quotedDefault,
    member?_quoted]
  cases description? (quotedRest s) with
  | none => rfl
  | some description =>
      change [Scan.memberRow 1 .param ["p"] _] = [quotedRow s description]
      rw [Scan.memberRow, hblock, hchoices]
      rfl

end Annotation

/-! ## The graph of the row -/

namespace TypeGraph

/-- The node of the only parameter. -/
def quotedNode (s : String) (description : List Char) : Node where
  name := "p"
  isParam := true
  isTypedef := false
  enum? := none
  doc := ""
  member := ⟨"string", some (.named "string"), [],
    some ⟨String.ofList ('"' :: (quotedStart s ++ ['"'])), .annotated⟩,
    String.ofList description, false⟩

theorem rowMember_quotedRow (s : String) (description : List Char) :
    rowMember (quotedRow s description) (.named "string") =
      fun _ => (quotedNode s description).member := by
  funext m
  have hdefault : (quotedRow s description).default.isEmpty = false := by
    change (String.ofList _).isEmpty = false
    rw [Bool.eq_false_iff, ne_eq, String.isEmpty_iff, ← String.toList_inj, String.toList_ofList]
    exact List.cons_ne_nil _ _
  rw [rowMember, hdefault]
  rfl

theorem build_quotedRow (s : String) (description : List Char) :
    build [quotedRow s description] = .ok ⟨[("p", quotedNode s description)], [], ["p"], []⟩ := by
  have hkey : keyOf "p" = "p" := by decide
  have htype : TypeExpr.ofBlock "string" = .ok (.named "string") := by decide
  have hbuiltin : Builtin.isName (TypeExpr.named "string").base = true := by decide
  have hdeclares : Declares .empty (quotedRow s description)
      (withParam .empty "p" (quotedRow s description) (.named "string")) :=
    .param rfl rfl (Row.type?_eq_some_iff.mpr htype)
  have hgraph : withParam .empty "p" (quotedRow s description) (.named "string") =
      ⟨[("p", quotedNode s description)], [], ["p"], []⟩ := by
    rw [withParam, withMember, rowMember_quotedRow, ensureUntyped, ensureNode, hkey]
    exact if_pos hbuiltin
  rw [build, List.foldlM_cons, declare_eq_ok_iff.mpr hdeclares, hgraph]
  rfl

/-- Whatever the values are, the schema gives the parameter the start of the literal. -/
theorem exists_native_quotedRow (s : String) (description : List Char) (values : Document)
    (source declarations : String) :
    ∃ g d, build [quotedRow s description] = .ok g ∧
      SchemaCompiler.native source declarations (.ofGraph (g.populate values)) = .ok d ∧
        d.default? "p" = some (.string (String.ofList (quotedStart s))) := by
  have hg := build_quotedRow s description
  generalize hgraph : (⟨[("p", quotedNode s description)], [], ["p"], []⟩ : TypeGraph) = g at hg
  have hkey : keyOf "p" = "p" := by decide
  have hmember : g.member? (.node "p") = some (quotedNode s description).member := by
    rw [← hgraph]
    rfl
  have hbare : (g.populate values).param? "p" = some "p" := by
    rw [← param?_bare, bare_populate, param?_bare, param?, hkey, ← hgraph]
    rfl
  have htypes : (g.populate values).memberTypes = [.named "string"] := by
    rw [memberTypes_populate, ← hgraph]
    rfl
  have hresolve : (Resolver.ofGraph (g.populate values)).resolve (.named "string") =
      .ok (.primitive .string) := rfl
  have hcomplete : (Resolver.ofGraph (g.populate values)).Complete := by
    refine ⟨((Built.rows hg).populate values).wellFormed, Resolver.undefinedTypes_eq_nil_iff.mpr ?_⟩
    intro m hm type htype
    have hmem : type ∈ (g.populate values).memberTypes := List.mem_filterMap.mpr ⟨m, hm, htype⟩
    rw [htypes, List.mem_singleton] at hmem
    exact ⟨_, hmem ▸ hresolve⟩
  have hdefault : (g.populate values).default? (.node "p") =
      some ⟨String.ofList ('"' :: (quotedStart s ++ ['"'])), .annotated⟩ := by
    refine default?_sampleEntries_of_eq_some ?_ [] none values.entries
    rw [default?, hmember]
    rfl
  have hslot : (Resolver.ofGraph (g.populate values)).resolveSlot (.node "p") =
      .ok (.primitive .string) := by
    obtain ⟨m, hm, -⟩ := Option.bind_eq_some_iff.mp hdefault
    have hbare := congrArg (·.member? (.node "p")) (bare_populate g values)
    simp only [member?_bare, hm, hmember] at hbare
    have htype : m.type? = some (.named "string") := congrArg (·.bind (·.type?)) hbare
    exact (Resolver.resolveSlot_eq hm htype).trans hresolve
  obtain ⟨d, hd, hd'⟩ :=
    hcomplete.exists_native_default hbare hslot rfl hdefault source declarations
  refine ⟨g, d, hg, hd, ?_⟩
  rw [hd', unquoted, String.toList_ofList, unquote_quotedStart]

/-- A JSON string literal behind the name of a parameter makes the line that of the parameter and
its string the default in the schema exactly if all characters of the string are plain. -/
theorem quoted_default_iff (s : String) (values : Document) (source declarations : String) :
    (∃ row g d, (Scan.ofText (quotedDefault s)).rows = [row] ∧
      row.declaredName? .param = some "p" ∧ build [row] = .ok g ∧
        SchemaCompiler.native source declarations (.ofGraph (g.populate values)) = .ok d ∧
          d.default? "p" = some (.string s)) ↔ ∀ c ∈ s.toList, Json.IsPlain c := by
  constructor
  · rintro ⟨row, g, d, hrows, -, hg, hd, hdefault⟩
    rw [rows_quotedDefault] at hrows
    cases hdescription : description? (quotedRest s) with
    | none =>
        rw [hdescription] at hrows
        cases hrows
    | some description =>
        rw [hdescription] at hrows
        cases hrows
        obtain ⟨g', d', hg', hd', hdefault'⟩ :=
          exists_native_quotedRow s description values source declarations
        cases hg.symm.trans hg'
        cases hd.symm.trans hd'
        have hstart : String.ofList (quotedStart s) = s :=
          Document.string.inj (Option.some.inj (hdefault'.symm.trans hdefault))
        rw [← quotedStart_eq_iff]
        exact (String.toList_ofList).symm.trans (congrArg String.toList hstart)
  · intro h
    obtain ⟨g, d, hg, hd, hdefault⟩ := exists_native_quotedRow s [] values source declarations
    refine ⟨quotedRow s [], g, d, ?_, rfl, hg, hd, ?_⟩
    · rw [rows_quotedDefault, quotedRest_eq_nil h]
      rfl
    · rw [hdefault, (quotedStart_eq_iff s).mpr h, String.ofList_toList]

example : (Scan.ofText (quotedDefault "a b")).rows = [quotedRow "a b" []] := by decide

/-- The line of a string with a quotation mark in it is prose. -/
theorem rows_quotedDefault_quote :
    (Scan.ofText (quotedDefault "a\"b")).rows = [] := by
  decide

end TypeGraph

end AnnotatedValues
