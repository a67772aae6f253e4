import AnnotatedValues.Proofs.Go.Distinct
import AnnotatedValues.Proofs.Go.Texts
import AnnotatedValues.Proofs.Table.Parameters

/-!
# Identifiers that a Go file may use

A letter or an underscore starts an identifier, and letters, digits and
underscores go on with it.  What is made of a name always starts with a letter.
It goes on as it should exactly if the name in camel case does, and of the names
in ASCII these are the ones without points and slashes.
-/

namespace AnnotatedValues

open Annotation Fallible Identifier Text

namespace Go

/-! ## Alphabets -/

/-- Which characters are letters and which are digits.  Those of ASCII are given. -/
structure Alphabet where
  isLetter : Char → Bool
  isDigit : Char → Bool
  isLetter_of_ascii : ∀ c : Char, c.toNat < 128 → isLetter c = c.isAlpha
  isDigit_of_ascii : ∀ c : Char, c.toNat < 128 → isDigit c = c.isDigit

namespace Alphabet

/-- The alphabet without any other characters. -/
def ascii : Alphabet := ⟨Char.isAlpha, Char.isDigit, fun _ _ => rfl, fun _ _ => rfl⟩

variable (a : Alphabet)

/-- A character that goes on with an identifier. -/
def isPart (c : Char) : Bool := a.isLetter c || a.isDigit c || c == '_'

/-- A letter or an underscore, and nothing but letters, digits and underscores behind it. -/
def isLegal : List Char → Bool
  | [] => false
  | c :: cs => (a.isLetter c || c == '_') && cs.all a.isPart

/-- Whether a name in camel case consists of letters, digits and underscores. -/
def spells (name : String) : Bool := (camelChars name.toList).all a.isPart

theorem isPart_of_ascii {c : Char} (h : c.toNat < 128) :
    a.isPart c = (c.isAlphanum || c == '_') := by
  rw [isPart, a.isLetter_of_ascii c h, a.isDigit_of_ascii c h]
  rfl

/-- Letters and digits of ASCII are part of identifiers in every alphabet. -/
theorem all_isPart_of_ascii {cs : List Char}
    (h : cs.all (fun c => decide (c.toNat < 128) && c.isAlphanum) = true) :
    cs.all a.isPart = true := by
  refine List.all_eq_true.mpr fun c hc => ?_
  have hplain := List.all_eq_true.mp h c hc
  rw [Bool.and_eq_true, decide_eq_true_eq] at hplain
  rw [a.isPart_of_ascii hplain.1, hplain.2]
  rfl

theorem toNat_lt_of_isUpper {c : Char} (h : c.isUpper = true) : c.toNat < 128 := by
  unfold Char.isUpper at h
  rw [decide_eq_true_eq] at h
  have hlast : c.toNat ≤ 90 := UInt32.le_iff_toNat_le.mp h.2
  omega

theorem isLetter_of_isUpper {c : Char} (h : c.isUpper = true) : a.isLetter c = true := by
  have halpha : c.isAlpha = (c.isUpper || c.isLower) := rfl
  rw [a.isLetter_of_ascii c (toNat_lt_of_isUpper h), halpha, h, Bool.true_or]

theorem isPart_of_isLetter {c : Char} (h : a.isLetter c = true) : a.isPart c = true := by
  rw [isPart, h]
  rfl

/-! ## Identifiers of names -/

/-- Behind a capital, all that matters is which characters there are. -/
theorem isLegal_of_isSpelled {ident : String} (h : IsSpelled ident) :
    a.isLegal ident.toList = ident.toList.all a.isPart := by
  obtain ⟨c, cs, hident, hc⟩ := h.letter
  have hletter := a.isLetter_of_isUpper hc
  rw [hident, isLegal, List.all_cons, hletter, a.isPart_of_isLetter hletter]
  rfl

theorem all_isPart_withLetter {lead : Char} (hlead : lead.isUpper = true) (name : String) :
    (withLetter lead name).toList.all a.isPart = a.spells name := by
  have hpart := a.isPart_of_isLetter (a.isLetter_of_isUpper hlead)
  unfold withLetter spells
  split
  · rename_i c cs hchars
    rw [hchars, String.toList_ofList]
    split
    · rfl
    · rw [List.all_cons, hpart, Bool.true_and]
  · rename_i hchars
    rw [hchars, String.toList_ofList, List.all_cons, hpart]
    rfl

theorem all_isPart_natText (n : Nat) : (Decimal.natText n).all a.isPart = true := by
  have hdigits : ∀ d < 10, (Decimal.digitChar d).toNat < 128 ∧
      (Decimal.digitChar d).isAlphanum = true := by decide
  refine List.all_eq_true.mpr fun c hc => ?_
  obtain ⟨digit, hdigit, rfl⟩ := Decimal.exists_digit_of_mem_natText hc
  obtain ⟨hascii, halnum⟩ := hdigits digit hdigit
  rw [a.isPart_of_ascii hascii, halnum]
  rfl

/-- A number changes nothing. -/
theorem all_isPart_free (taken : List String) (base : String) :
    (free taken base).toList.all a.isPart = base.toList.all a.isPart := by
  rcases free_eq taken base with hfree | ⟨n, hfree⟩
  · rw [hfree]
  · rw [hfree, numbered, String.toList_append, String.toList_ofList, List.all_append,
      a.all_isPart_natText, Bool.and_true]

variable {g : TypeGraph} {package : String} {f : File}

/-- The identifier of a field is as legal as its name. -/
theorem isLegal_of_mem_fieldDecls {r : Resolver} {slots : List (String × Slot)}
    {fields : List FieldDecl} (h : fieldDecls r slots = .ok fields) {field : FieldDecl}
    (hfield : field ∈ fields) (hident : IsSpelled field.ident) :
    a.isLegal field.ident.toList = a.spells field.key := by
  have hmem : (field.key, field.ident) ∈
      assignFree [] (slots.map fun s => (s.1, withLetter 'X' s.1)) := by
    rw [← map_names_fieldDecls h]
    exact List.mem_map_of_mem hfield
  obtain ⟨base, taken, hbase, hfree⟩ := exists_free_of_mem_assignFree hmem
  obtain ⟨slot, -, heq⟩ := List.mem_map.mp hbase
  obtain ⟨hkey, rfl⟩ := Prod.mk.inj heq
  rw [a.isLegal_of_isSpelled hident, show field.ident = _ from hfree, a.all_isPart_free,
    a.all_isPart_withLetter (by decide), hkey]

/-- The identifier of a type is as legal as its name. -/
theorem isLegal_ident (hg : g.WellFormed) (hline : g.SingleLine) {key : String}
    (hkey : (Resolver.ofGraph g).IsType key) :
    ∃ node, g.node? key = some node ∧
      a.isLegal ((Resolver.ofGraph g).ident key).toList = a.spells node.name := by
  obtain ⟨node, hmem, lead, hlead, taken, hident⟩ :=
    exists_free_of_mem_ofGraph (Resolver.ident_mem_ofGraph hkey)
  have hparts : lead.toList.all a.isPart = true := by
    rcases List.mem_pair.mp hlead with rfl | rfl <;> exact a.all_isPart_of_ascii (by decide)
  refine ⟨node, hg.node?_of_mem hmem, ?_⟩
  rw [a.isLegal_of_isSpelled (Resolver.isSpelled_ident hline hkey), hident, a.all_isPart_free,
    String.toList_append, List.all_append, hparts, Bool.true_and,
    a.all_isPart_withLetter (by decide)]

/-- Those that a file uses without a type of the graph are legal. -/
theorem isLegal_of_mem_taken : ∀ ident ∈ Identifier.taken, a.isLegal ident.toList = true := by
  have hascii : ∀ ident ∈ Identifier.taken, ∃ c cs, ident.toList = c :: cs ∧
      c.isUpper = true ∧ cs.all (fun d => decide (d.toNat < 128) && d.isAlphanum) = true := by
    simp only [Identifier.taken, List.forall_mem_cons]
    exact ⟨⟨_, _, String.toList_ofList, by decide⟩, ⟨_, _, String.toList_ofList, by decide⟩,
      ⟨_, _, String.toList_ofList, by decide⟩, List.forall_mem_nil _⟩
  intro ident hident
  obtain ⟨c, cs, hchars, hc, hcs⟩ := hascii ident hident
  rw [hchars, isLegal, a.isLetter_of_isUpper hc, a.all_isPart_of_ascii hcs]
  rfl

/-! ## Names in ASCII -/

theorem all_isPart_capitalized {cs : List Char} (h : ∀ c ∈ cs, c.toNat < 128) :
    (capitalized cs).all a.isPart = cs.all a.isPart := by
  have hupper : ∀ n < 128, (Char.ofNat n).toUpper.toNat < 128 ∧
      ((Char.ofNat n).toUpper.isAlphanum || (Char.ofNat n).toUpper == '_') =
        ((Char.ofNat n).isAlphanum || Char.ofNat n == '_') := by decide
  cases cs with
  | nil => rfl
  | cons c cs =>
      have hc := h c List.mem_cons_self
      have hcase := hupper c.toNat hc
      rw [Char.ofNat_toNat] at hcase
      have hpart : a.isPart c.toUpper = a.isPart c := by
        rw [a.isPart_of_ascii hcase.1, hcase.2, a.isPart_of_ascii hc]
      rw [capitalized, upperChar, if_pos hc, List.singleton_append, List.all_cons, List.all_cons,
        hpart]

theorem isPart_of_isMemberChar {c : Char} (hc : isMemberChar c = true) (hascii : c.toNat < 128)
    (hjoint : isJoint c = false) (hpoint : c ≠ '.') (hslash : c ≠ '/') : a.isPart c = true := by
  have hword : isWord c = (c.isAlphanum || c == '_') := if_pos hascii
  rw [a.isPart_of_ascii hascii, ← hword]
  rw [isJoint, Bool.or_eq_false_iff] at hjoint
  rw [isMemberChar, hjoint.2, beq_false_of_ne hpoint, beq_false_of_ne hslash] at hc
  simpa only [Bool.or_false] using hc

/-- A name in ASCII is turned into a legal identifier unless it has a point or a slash. -/
theorem spells_iff {name : String} (hname : Scan.IsName name)
    (hascii : ∀ c ∈ name.toList, c.toNat < 128) :
    a.spells name = true ↔ '.' ∉ name.toList ∧ '/' ∉ name.toList := by
  have hpieces : a.spells name = (splitBy isJoint name.toList).all fun cs => cs.all a.isPart := by
    rw [spells, camelChars, List.all_flatMap, Bool.eq_iff_iff, List.all_eq_true, List.all_eq_true]
    refine forall₂_congr fun piece hpiece => ?_
    rw [a.all_isPart_capitalized fun c hc => hascii c (mem_of_mem_splitBy hpiece hc).1]
  rw [hpieces, ← List.all_flatten, flatten_splitBy, List.all_eq_true]
  constructor
  · intro hall
    have hpart : ∀ c ∈ name.toList, isJoint c = false → a.isPart c = true := fun c hc hjoint =>
      hall c (List.mem_filter.mpr ⟨hc, by rw [hjoint]; rfl⟩)
    have hforeign : ∀ c : Char, isJoint c = false ∧ c.toNat < 128 ∧
        (c.isAlphanum || c == '_') = false → c ∉ name.toList := by
      rintro c ⟨hjoint, hlow, hother⟩ hmem
      rw [← a.isPart_of_ascii hlow, hpart c hmem hjoint] at hother
      cases hother
    exact ⟨hforeign '.' (by decide), hforeign '/' (by decide)⟩
  · rintro ⟨hpoint, hslash⟩ c hc
    obtain ⟨hmem, hjoint⟩ := List.mem_filter.mp hc
    rw [Bool.not_eq_true'] at hjoint
    exact a.isPart_of_isMemberChar (hname c hmem) (hascii c hmem) hjoint
      (fun heq => hpoint (heq ▸ hmem)) fun heq => hslash (heq ▸ hmem)

end Alphabet

/-! ## Identifiers of a file -/

/-- The identifiers of all types that a file declares or that its fields refer to. -/
def File.typeIdents (f : File) : List String :=
  f.typeNames ++ f.fieldTypes.filterMap fun t => t.user?.map Prod.snd

/-- They are those that no graph gives, and those of types of the graph. -/
theorem isType_of_mem_typeIdents (hg : g.WellFormed) (h : file (.ofGraph g) package = .ok f)
    {ident : String} (hident : ident ∈ f.typeIdents) :
    ident ∈ Identifier.taken ∨
      ∃ key, ident = (Resolver.ofGraph g).ident key ∧ (Resolver.ofGraph g).IsType key := by
  rcases List.mem_append.mp hident with hname | hreference
  · rw [typeNames_eq (r := .ofGraph g) hg h] at hname
    have hempty : ∀ {b : Bool}, ident ∈ (if b then [emptyObject] else []) → ident = emptyObject := by
      rintro (_ | _) hmem
      · cases hmem
      · exact List.mem_singleton.mp hmem
    simp only [List.mem_cons, List.mem_append] at hname
    rcases hname with rfl | rfl | hkey | hname
    · exact Or.inl List.mem_cons_self
    · exact Or.inl (List.mem_cons_of_mem _ List.mem_cons_self)
    · obtain ⟨key, hdeclared, rfl⟩ := List.mem_map.mp hkey
      exact Or.inr ⟨key, rfl, Resolver.isType_of_mem_declaredKeys (r := .ofGraph g) hg hdeclared⟩
    · rw [hempty hname]
      exact Or.inl (List.mem_cons_of_mem _ (List.mem_cons_of_mem _ List.mem_cons_self))
  · obtain ⟨type, htype, huser⟩ := List.mem_filterMap.mp hreference
    obtain ⟨⟨key, ident⟩, hreference, rfl⟩ := Option.map_eq_some_iff.mp huser
    obtain ⟨struct, hstruct, htype⟩ := List.mem_flatMap.mp htype
    obtain ⟨field, hfield, rfl⟩ := List.mem_map.mp htype
    obtain ⟨slot, hslot⟩ : ∃ slot, (Resolver.ofGraph g).resolveSlot slot = .ok field.type := by
      rcases resolveSlot_of_field h hstruct hfield with ⟨_, -, ht⟩ | ⟨_, -, _, -, ht⟩
      · exact ⟨_, ht⟩
      · exact ⟨_, ht⟩
    obtain ⟨hident, hkey⟩ := Resolver.isType_of_user? (r := .ofGraph g) hg hslot hreference
    exact Or.inr ⟨key, hident, hkey⟩

end Go

namespace ValuesFile

/-- A values file that is read has a Go file.  The identifier of a field is legal exactly if the name
of the field in camel case consists of letters, digits and underscores, and that of a type exactly
if the name of the type does; a name in ASCII does exactly if it has no point and no slash, and in
structs other than that of the parameters no field has them. -/
theorem isLegal_eq_spells {source text : String} {f : ValuesFile}
    (h : ofText source text = .ok f) (package : String) (a : Go.Alphabet) :
    ∃ file, Go.file f.resolver package = .ok file ∧ f.declarations package = .ok file.text ∧
      (∀ s ∈ file.structs, ∀ field ∈ s.fields,
        a.isLegal field.ident.toList = a.spells field.key ∧
          (s.ident ≠ rootSpec → '.' ∉ field.key.toList ∧ '/' ∉ field.key.toList)) ∧
      (∀ ident ∈ file.typeIdents,
        (ident ∈ [root, rootSpec, emptyObject] ∧ a.isLegal ident.toList = true) ∨
          ∃ key node, f.resolver.graph.node? key = some node ∧ ident = f.resolver.ident key ∧
            a.isLegal ident.toList = a.spells node.name) ∧
      ∀ name, Scan.IsName name → (∀ c ∈ name.toList, c.toNat < 128) →
        (a.spells name = true ↔ '.' ∉ name.toList ∧ '/' ∉ name.toList) := by
  obtain ⟨g, hg, hresolver, -⟩ := exists_built_of_ofText h
  have hgraph := singleLine_graph h
  have hnames : ∀ field ∈ f.resolver.graph.fields, ∀ c ∈ ['.', '/'], c ∉ field.name.toList := by
    intro field hfield c hc hmem
    have hseparator : Scan.isSeparator c = true := by
      rcases List.mem_pair.mp hc with rfl | rfl <;> rfl
    exact Bool.false_ne_true
      ((isSeparator_of_mem_fields h hfield c hmem).symm.trans hseparator)
  obtain ⟨file, hfile⟩ := Go.exists_file (complete_of_ofText h) package
  rw [hresolver] at hfile hgraph hnames
  have hline := Go.singleLine_file hg.wellFormed hgraph hfile
  refine ⟨file, by rw [hresolver, hfile], ?_, ?_, ?_, fun name => a.spells_iff⟩
  · rw [declarations, Go.declarations, hresolver, hfile]
    rfl
  · intro s hs field hfield
    obtain ⟨slots, hslots, hmembers⟩ := Go.exists_slots_of_mem_structs hfile hs
    have hfields := (hline.structs s hs).fields field hfield
    refine ⟨a.isLegal_of_mem_fieldDecls hslots hfield hfields.ident, fun hroot => ?_⟩
    have hkey : field.key ∈ slots.map Prod.fst := by
      rw [← Go.map_key_fieldDecls hslots]
      exact List.mem_map_of_mem hfield
    obtain ⟨slot, hslot, hkey⟩ := List.mem_map.mp hkey
    obtain ⟨member, hmember, hname⟩ := hmembers.resolve_left hroot slot hslot
    rw [← hkey, ← hname]
    exact ⟨hnames member hmember '.' List.mem_cons_self,
      hnames member hmember '/' (List.mem_cons_of_mem _ List.mem_cons_self)⟩
  · intro ident hident
    rcases Go.isType_of_mem_typeIdents hg.wellFormed hfile hident with htaken | ⟨key, rfl, hkey⟩
    · exact Or.inl ⟨htaken, a.isLegal_of_mem_taken ident htaken⟩
    · obtain ⟨node, hnode, hlegal⟩ := a.isLegal_ident hg.wellFormed hgraph hkey
      rw [hresolver]
      exact Or.inr ⟨key, node, hnode, rfl, hlegal⟩

/-- A type and a parameter of one name, with a dash. -/
def joinedNames : String :=
  "## @field \x7bint\x7d max-size.x\n## @param \x7b[]max-size\x7d max-size\n"

theorem names_joinedNames :
    ((ofText "values.yaml" joinedNames).toOption.bind fun f =>
      (Go.file f.resolver "values").toOption.map fun file =>
        (file.structs.map fun s => s.fields.map fun field => (field.key, field.ident),
          file.typeIdents.contains "MaxSize")) =
      some ([[("max-size", "MaxSize")], [("x", "X")]], true) := by
  have hchars : joinedNames.toList = _ := String.toList_ofList
  simp only [ofText, Document.ofText, hchars]
  decide +kernel

/-- They become legal identifiers. -/
theorem isLegal_joinedNames :
    ∃ f file, ofText "values.yaml" joinedNames = .ok f ∧
      Go.file f.resolver "values" = .ok file ∧ "MaxSize" ∈ file.typeIdents ∧
        ∃ s ∈ file.structs, ∃ field ∈ s.fields, field.key = "max-size" ∧
          field.ident = "MaxSize" ∧ Go.Alphabet.ascii.isLegal field.ident.toList = true := by
  obtain ⟨f, hf, hnames⟩ := bind_toOption_eq_some_iff.mp names_joinedNames
  obtain ⟨file, hfile, hnames⟩ := map_toOption_eq_some_iff.mp hnames
  obtain ⟨hstructs, htype⟩ := Prod.mk.inj hnames
  obtain ⟨s, rest, hsplit, hfields, -⟩ := List.map_eq_cons_iff.mp hstructs
  obtain ⟨field, others, hsplit', hfield, -⟩ := List.map_eq_cons_iff.mp hfields
  obtain ⟨hkey, hident⟩ := Prod.mk.inj hfield
  have hs : s ∈ file.structs := hsplit ▸ List.mem_cons_self
  have hfield : field ∈ s.fields := hsplit' ▸ List.mem_cons_self
  obtain ⟨file', hfile', -, hlegal, -⟩ := isLegal_eq_spells hf "values" Go.Alphabet.ascii
  rw [hfile] at hfile'
  cases hfile'
  refine ⟨f, file, hf, hfile, List.contains_iff_mem.mp htype, s, hs, field, hfield, hkey, hident, ?_⟩
  rw [(hlegal s hs field hfield).1, hkey]
  decide

/-- A parameter with a point in its name. -/
def pointedName : String := "## @param \x7bint\x7d a.b\n"

theorem names_pointedName :
    ((ofText "values.yaml" pointedName).toOption.bind fun f =>
      (Go.file f.resolver "values").toOption.map fun file =>
        (f.validate.toOption, file.structs.map fun s => s.fields.map fun field =>
          (field.ident, field.text))) =
      some (some (), [[("A.b", "\tA.b int `json:\"a.b\"`\n")]]) := by
  decide +kernel

/-- It is valid, and its field is written with the point. -/
theorem not_isLegal_pointedName :
    ∃ (f : ValuesFile) (file : Go.File), ofText "values.yaml" pointedName = .ok f ∧
      f.validate = .ok () ∧ f.declarations "values" = .ok file.text ∧
        ∃ s ∈ file.structs, ∃ field ∈ s.fields,
          field.text = "\tA.b int `json:\"a.b\"`\n" ∧
            ∀ a : Go.Alphabet, a.isLegal field.ident.toList = false := by
  obtain ⟨f, hf, hnames⟩ := bind_toOption_eq_some_iff.mp names_pointedName
  obtain ⟨file, hfile, hnames⟩ := map_toOption_eq_some_iff.mp hnames
  obtain ⟨hvalid, hstructs⟩ := Prod.mk.inj hnames
  obtain ⟨s, rest, hsplit, hfields, -⟩ := List.map_eq_cons_iff.mp hstructs
  obtain ⟨field, others, hsplit', hfield, -⟩ := List.map_eq_cons_iff.mp hfields
  obtain ⟨hident, htext⟩ := Prod.mk.inj hfield
  refine ⟨f, file, hf, toOption_eq_some_iff.mp hvalid, ?_, s, hsplit ▸ List.mem_cons_self,
    field, hsplit' ▸ List.mem_cons_self, htext, fun a => ?_⟩
  · rw [declarations, Go.declarations, hfile]
    rfl
  · have hpoint : a.isPart '.' = false := a.isPart_of_ascii (by decide)
    rw [hident, String.toList_ofList, Go.Alphabet.isLegal, List.all_cons, hpoint, Bool.false_and,
      Bool.and_false]

end ValuesFile

end AnnotatedValues
