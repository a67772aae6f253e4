import AnnotatedValues.Proofs.Fallible
import AnnotatedValues.Proofs.Text.Trimming
import AnnotatedValues.TypeExpr.Parser

/-!
# How type expressions are written

The parser reads a text as a type expression exactly if the text is written by
the grammar: wrappers and a name, with blanks in front of each and around the
key of a map.  Such a text ends in a character that is not blank, and holds few
characters besides those of names.
-/

namespace AnnotatedValues.TypeExpr

open Text Fallible

/-- The ways to write a type expression. -/
inductive Written : List Char → TypeExpr → Prop where
  | blank {c : Char} {cs : List Char} {t : TypeExpr} (hc : isBlank c = true) (h : Written cs t) :
      Written (c :: cs) t
  | pointer {cs : List Char} {t : TypeExpr} (h : Written cs t) : Written ('*' :: cs) (.pointer t)
  | array {cs : List Char} {t : TypeExpr} (h : Written cs t) :
      Written ('[' :: ']' :: cs) (.array t)
  | map {key cs : List Char} {t : TypeExpr} (hkey : trim key = "string".toList)
      (h : Written cs t) : Written ("map[".toList ++ (key ++ ']' :: cs)) (.map t)
  | name {cs : List Char} (hcs : cs ≠ []) (hname : ∀ c ∈ cs, isNameChar c = true) :
      Written cs (.named (String.ofList cs))

/-! ## Parsing what is written -/

theorem not_isBlank_of_isNameChar {c : Char} (h : isNameChar c = true) : isBlank c = false := by
  simp only [isNameChar, Bool.or_eq_true, beq_iff_eq] at h
  rcases h with ((halnum | rfl) | rfl) | rfl
  · exact isBlank_of_isWord (isWord_of_isAlphanum halnum)
  · rfl
  · rfl
  · rfl

/-- What starts with no wrapper is a name behind blanks. -/
theorem parseFrom_cons {c : Char} {cs : List Char} (hstar : c = '*' → False)
    (harray : ∀ rest, c = '[' → cs = ']' :: rest → False)
    (hmap : ∀ rest, c = 'm' → cs = 'a' :: 'p' :: '[' :: rest → False) :
    parseFrom (c :: cs) = if isBlank c then parseFrom cs else parseName (c :: cs) := by
  rw [parseFrom.eq_def]
  split
  · rename_i h
    cases h
  · rename_i h
    exact absurd (List.cons.inj h).1 hstar
  · rename_i rest h
    exact absurd (List.cons.inj h).2 (harray rest (List.cons.inj h).1)
  · rename_i rest h
    exact absurd (List.cons.inj h).2 (hmap rest (List.cons.inj h).1)
  · rename_i h
    cases h
    rfl

theorem parseFrom_pointer (cs : List Char) :
    parseFrom ('*' :: cs) = (parseFrom cs).map .pointer := rfl

theorem parseFrom_array (cs : List Char) :
    parseFrom ('[' :: ']' :: cs) = (parseFrom cs).map .array := rfl

theorem parseFrom_blank {c : Char} (hc : isBlank c = true) (cs : List Char) :
    parseFrom (c :: cs) = parseFrom cs := by
  have hne : ∀ d, isBlank d = false → c ≠ d := fun d hd heq => by
    rw [heq, hd] at hc
    cases hc
  rw [parseFrom_cons (hne '*' rfl) (fun _ h => absurd h (hne '[' rfl))
    (fun _ h => absurd h (hne 'm' rfl)), if_pos hc]

theorem parseName_eq_ok_iff {cs : List Char} {t : TypeExpr} :
    parseName cs = .ok t ↔ (∀ c ∈ cs, isNameChar c = true) ∧ t = .named (String.ofList cs) := by
  unfold parseName
  split
  · rename_i c hc
    have hname : isNameChar c = false := by simpa using List.find?_some hc
    refine iff_of_false nofun fun ⟨h, _⟩ => ?_
    rw [h c (List.mem_of_find?_eq_some hc)] at hname
    cases hname
  · rename_i hnone
    have hall : ∀ c ∈ cs, isNameChar c = true := by simpa using List.find?_eq_none.mp hnone
    rw [Except.ok.injEq, eq_comm]
    exact (and_iff_right hall).symm

theorem parseFrom_name {cs : List Char} (hcs : cs ≠ []) (hname : ∀ c ∈ cs, isNameChar c = true) :
    parseFrom cs = .ok (.named (String.ofList cs)) := by
  obtain ⟨c, rest, rfl⟩ := List.exists_cons_of_ne_nil hcs
  have hbracket : isNameChar '[' = false := by decide
  have hc := hname c List.mem_cons_self
  rw [parseFrom_cons, not_isBlank_of_isNameChar hc, if_neg Bool.false_ne_true]
  · exact parseName_eq_ok_iff.mpr ⟨hname, rfl⟩
  · rintro rfl
    cases hc
  · rintro _ rfl
    cases hc
  · rintro _ - rfl
    have := hname '[' (by simp)
    cases this

theorem parseKey_append {read key : List Char} (h : ']' ∉ key) (cs : List Char) :
    parseKey read (key ++ ']' :: cs) = parseKey (key.reverse ++ read) (']' :: cs) := by
  induction key generalizing read with
  | nil => rfl
  | cons c key ih =>
      rw [List.mem_cons, not_or] at h
      rw [List.cons_append, parseKey, if_neg (by simpa using Ne.symm h.1), ih h.2,
        List.reverse_cons, List.append_assoc, List.singleton_append]

theorem closing_not_mem_key {key : List Char} (h : trim key = "string".toList) : ']' ∉ key := by
  intro hmem
  rcases mem_trim_or_isBlank hmem with htrim | hblank
  · rw [h] at htrim
    exact absurd htrim (by decide)
  · cases hblank

theorem parseFrom_map {key : List Char} (h : trim key = "string".toList) (cs : List Char) :
    parseFrom ("map[".toList ++ (key ++ ']' :: cs)) = (parseFrom cs).map .map := by
  have hkey : trim (key.reverse ++ []).reverse = "string".toList := by simpa using h
  change parseKey [] (key ++ ']' :: cs) = _
  rw [parseKey_append (closing_not_mem_key h), parseKey, if_pos (beq_self_eq_true _), hkey]
  exact if_pos (beq_self_eq_true _)

theorem parseFrom_eq_ok_of_written {cs : List Char} {t : TypeExpr} (h : Written cs t) :
    parseFrom cs = .ok t := by
  induction h with
  | blank hc _ ih => rw [parseFrom_blank hc, ih]
  | pointer _ ih => rw [parseFrom_pointer, ih]; rfl
  | array _ ih => rw [parseFrom_array, ih]; rfl
  | map hkey _ ih => rw [parseFrom_map hkey, ih]; rfl
  | name hcs hname => exact parseFrom_name hcs hname

/-! ## Only what is written is parsed -/

/-- By the recursion of the parser.  What it has read of a key stands in front of the rest of it. -/
theorem written_of_parseFrom {cs : List Char} : ∀ t, parseFrom cs = .ok t → Written cs t := by
  refine parseFrom.induct (fun cs => ∀ t, parseFrom cs = .ok t → Written cs t)
    (fun read cs => ∀ t, parseKey read cs = .ok t →
      Written ("map[".toList ++ (read.reverse ++ cs)) t)
    ?empty ?pointer ?array ?map ?blank ?name ?unterminated ?key ?otherKey ?keyChar cs
  case empty =>
    intro t h
    cases h
  case pointer =>
    intro cs ih t h
    rw [parseFrom_pointer, map_eq_ok_iff] at h
    obtain ⟨inner, hinner, rfl⟩ := h
    exact .pointer (ih inner hinner)
  case array =>
    intro cs ih t h
    rw [parseFrom_array, map_eq_ok_iff] at h
    obtain ⟨inner, hinner, rfl⟩ := h
    exact .array (ih inner hinner)
  case map =>
    intro cs ih t h
    exact ih t h
  case blank =>
    intro c cs hstar harray hmap hblank ih t h
    rw [parseFrom_blank hblank] at h
    exact .blank hblank (ih t h)
  case name =>
    intro c cs hstar harray hmap hblank t h
    rw [parseFrom_cons hstar harray hmap, if_neg hblank, parseName_eq_ok_iff] at h
    obtain ⟨hname, rfl⟩ := h
    exact .name (List.cons_ne_nil _ _) hname
  case unterminated =>
    intro read t h
    cases h
  case key =>
    intro read c cs hclosing name hstring ih t h
    rw [parseKey, if_pos hclosing, if_pos hstring, map_eq_ok_iff] at h
    obtain ⟨inner, hinner, rfl⟩ := h
    rw [beq_iff_eq.mp hclosing]
    exact .map (beq_iff_eq.mp hstring) (ih inner hinner)
  case otherKey =>
    intro read c cs hclosing name hstring t h
    rw [parseKey, if_pos hclosing, if_neg hstring] at h
    cases h
  case keyChar =>
    intro read c cs hclosing ih t h
    rw [parseKey, if_neg hclosing] at h
    have hwritten := ih t h
    rwa [List.reverse_cons, List.append_assoc, List.singleton_append] at hwritten

theorem parseFrom_eq_ok_iff {cs : List Char} {t : TypeExpr} :
    parseFrom cs = .ok t ↔ Written cs t :=
  ⟨written_of_parseFrom t, parseFrom_eq_ok_of_written⟩

namespace Written

variable {cs : List Char} {t : TypeExpr}

/-- A type that has the name of one is written as its text. -/
theorem chars {t : TypeExpr} (hbase : t.base ≠ "")
    (hname : ∀ c ∈ t.base.toList, isNameChar c = true) : Written t.chars t := by
  induction t with
  | pointer inner ih => exact .pointer (ih hbase hname)
  | array inner ih => exact .array (ih hbase hname)
  | map inner ih =>
      have hkey : trim "string".toList = "string".toList := rfl
      exact .map hkey (ih hbase hname)
  | named name =>
      have hwritten := Written.name (mt String.toList_eq_nil_iff.mp hbase) hname
      rwa [base, String.ofList_toList] at hwritten

/-! ## Characters -/

theorem ne_nil (h : Written cs t) : cs ≠ [] := by
  cases h with
  | name hcs => exact hcs
  | blank | pointer | array | map => exact List.cons_ne_nil _ _

theorem trimStart (h : Written cs t) : Written (trimStart cs) t := by
  induction h with
  | @blank c cs t hc _ ih => rwa [Text.trimStart, List.dropWhile_cons_of_pos hc]
  | pointer h => exact .pointer h
  | array h => exact .array h
  | map hkey h => exact .map hkey h
  | @name cs hcs hname =>
      rw [trimStart_eq_self fun c hc => not_isBlank_of_isNameChar (hname c (List.mem_of_mem_head? hc))]
      exact .name hcs hname

theorem getLast? (h : Written cs t) : ∀ c ∈ cs.getLast?, isBlank c = false := by
  induction h with
  | @blank c cs t _ h ih => rwa [List.getLast?_cons_of_ne_nil h.ne_nil]
  | @pointer cs t h ih => rwa [List.getLast?_cons_of_ne_nil h.ne_nil]
  | @array cs t h ih =>
      rwa [List.getLast?_cons_of_ne_nil (List.cons_ne_nil _ _), List.getLast?_cons_of_ne_nil h.ne_nil]
  | @map key cs t _ h ih =>
      rwa [List.getLast?_append_of_ne_nil _ (by simp), List.getLast?_append_of_ne_nil _ (by simp),
        List.getLast?_cons_of_ne_nil h.ne_nil]
  | name _ hname =>
      exact fun c hc => not_isBlank_of_isNameChar (hname c (List.mem_of_mem_getLast? hc))

theorem mem_cases (h : Written cs t) {c : Char} (hc : c ∈ cs) :
    isBlank c = true ∨ isNameChar c = true ∨ c ∈ ['*', '[', ']'] := by
  have hletters : ∀ d ∈ "map".toList ++ "string".toList, isNameChar d = true :=
    List.all_eq_true.mp (by decide)
  induction h with
  | blank hblank _ ih =>
      rcases List.mem_cons.mp hc with rfl | hc
      · exact Or.inl hblank
      · exact ih hc
  | pointer _ ih =>
      rcases List.mem_cons.mp hc with rfl | hc
      · exact Or.inr (Or.inr (by decide))
      · exact ih hc
  | array _ ih =>
      rcases List.mem_cons.mp hc with rfl | hc
      · exact Or.inr (Or.inr (by decide))
      rcases List.mem_cons.mp hc with rfl | hc
      · exact Or.inr (Or.inr (by decide))
      · exact ih hc
  | map hkey _ ih =>
      rcases List.mem_append.mp hc with hopen | hc
      · have hopen : c ∈ "map".toList ++ ['['] := hopen
        refine Or.inr ((List.mem_append.mp hopen).imp (fun hmap => ?_) fun hbracket => ?_)
        · exact hletters c (List.mem_append_left _ hmap)
        · rw [List.mem_singleton.mp hbracket]
          decide
      rcases List.mem_append.mp hc with hinside | hc
      · exact (mem_trim_or_isBlank hinside).symm.imp_right fun htrim =>
          Or.inl (hletters c (List.mem_append_right _ (hkey ▸ htrim)))
      rcases List.mem_cons.mp hc with rfl | hc
      · exact Or.inr (Or.inr (by decide))
      · exact ih hc
  | name _ hname => exact Or.inr (Or.inl (hname c hc))

theorem not_mem (h : Written cs t) {c : Char} (hblank : isBlank c = false)
    (hname : isNameChar c = false) (hmark : c ∉ ['*', '[', ']']) : c ∉ cs := by
  intro hc
  rcases h.mem_cases hc with hc | hc | hc
  · exact Bool.false_ne_true (hblank.symm.trans hc)
  · exact Bool.false_ne_true (hname.symm.trans hc)
  · exact hmark hc

end Written

end AnnotatedValues.TypeExpr
