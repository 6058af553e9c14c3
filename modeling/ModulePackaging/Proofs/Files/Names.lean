import ModulePackaging.Proofs.Files.Tree
import ModulePackaging.Proofs.Pieces

/-!
# The last name of a path

A plain name is one part of a path and leads one directory down. The place of a path that ends in a
plain name is right below the place of its parent, so two paths with the same parent have the same
place only if they have the same name.
-/

namespace ModulePackaging

namespace Text

variable {sep : CodePoint}

/-- No piece has the separator in it. -/
theorem notMem_of_mem_splitOn {t piece : Text} (h : piece ∈ splitOn sep t) : sep ∉ piece := by
  unfold splitOn at h
  induction t generalizing piece with
  | nil =>
      rw [List.mem_singleton.mp h]
      exact List.not_mem_nil
  | cons c rest ih =>
      rw [splitWhere] at h
      split at h
      · rcases List.mem_cons.mp h with rfl | later
        · exact List.not_mem_nil
        · exact ih later
      · rename_i other
        have apart : c ≠ sep := by simpa using other
        split at h
        · rw [List.mem_singleton.mp h, List.mem_singleton]
          exact Ne.symm apart
        · rename_i first others split
          rcases List.mem_cons.mp h with rfl | later
          · rw [List.mem_cons, not_or]
            exact ⟨Ne.symm apart, ih (split ▸ List.mem_cons_self)⟩
          · exact ih (split ▸ List.mem_cons_of_mem _ later)

/-- An end without the separator is in the last piece. -/
theorem splitOn_append {last : Text} (none : sep ∉ last) (front : Text) :
    ∃ pieces start, splitOn sep (front ++ last) = pieces ++ [start ++ last] := by
  unfold splitOn
  induction front with
  | nil =>
      refine ⟨[], [], ?_⟩
      rw [List.nil_append, splitWhere_of_none]
      · rfl
      · intro c member
        rw [beq_eq_false_iff_ne]
        rintro rfl
        exact none member
  | cons c front ih =>
      obtain ⟨pieces, start, split⟩ := ih
      rw [List.cons_append, splitWhere, split]
      by_cases here : (c == sep) = true
      · rw [if_pos here]
        exact ⟨[] :: pieces, start, rfl⟩
      · rw [if_neg here]
        cases pieces with
        | nil => exact ⟨[], c :: start, rfl⟩
        | cons first others => exact ⟨(c :: first) :: others, start, rfl⟩

end Text

namespace Path

variable {p : Path} {name : Text}

/-- A name that is one part of a path and leads one directory down. -/
structure IsPlainName (name : Text) : Prop where
  some : name ≠ []
  slash : slash ∉ name
  dot : name ≠ [0x2E]
  back : name ≠ Files.Tree.back

/-- A name without slashes that is longer than two dots is plain. -/
theorem isPlainName_of_length (long : 2 < name.length) (none : Path.slash ∉ name) :
    IsPlainName name := by
  refine ⟨?_, none, ?_, ?_⟩ <;> rintro rfl <;> exact absurd long (by decide)

/-- The parts of a path are the parts between the slashes; the slashes in front have none. -/
theorem parts_ofText (t : Text) : (ofText t).parts = (Text.splitOn slash t).filter isPart := by
  show (Text.splitOn slash (t.drop (t.takeWhile (· == slash)).length)).filter isPart = _
  induction t with
  | nil => rfl
  | cons c rest ih =>
      by_cases here : (c == slash) = true
      · rw [List.takeWhile_cons, if_pos here, List.length_cons, List.drop_succ_cons, ih]
        unfold Text.splitOn
        rw [Text.splitWhere, if_pos here]
        rfl
      · rw [List.takeWhile_cons, if_neg here]
        rfl

theorem mem_splitOn_of_mem_parts {t : Text} (h : name ∈ (ofText t).parts) :
    name ∈ Text.splitOn slash t := by
  rw [parts_ofText] at h
  exact (List.mem_filter.mp h).1

/-- A part of the path that a text stands for is plain, unless it leads back. -/
theorem isPlainName_of_mem_parts {t : Text} (h : name ∈ (ofText t).parts)
    (forward : name ≠ Files.Tree.back) : IsPlainName name := by
  have piece := mem_splitOn_of_mem_parts h
  rw [parts_ofText] at h
  obtain ⟨some, dot⟩ : name ≠ [] ∧ name ≠ [0x2E] := by
    simpa [isPart] using (List.mem_filter.mp h).2
  exact ⟨some, Text.notMem_of_mem_splitOn piece, dot, forward⟩

/-- A plain name as a text is the path of that name. -/
theorem ofText_of_plain (plain : IsPlainName name) : ofText name = ⟨.relative, [name]⟩ := by
  have apart : ∀ c ∈ name, (c == slash) = false := by
    intro c member
    rw [beq_eq_false_iff_ne]
    rintro rfl
    exact plain.slash member
  have passes : isPart name = true := by
    simp [isPart, plain.some, plain.dot]
  have anchor : (ofText name).anchor = .relative := by
    obtain ⟨c, rest, rfl⟩ := List.exists_cons_of_ne_nil plain.some
    show anchorOf ((c :: rest).takeWhile (· == slash)).length = .relative
    rw [List.takeWhile_cons_of_neg (by simp [apart c List.mem_cons_self])]
    rfl
  have parts : (ofText name).parts = [name] := by
    rw [parts_ofText, Text.splitOn, Text.splitWhere_of_none apart, List.filter_cons_of_pos passes,
      List.filter_nil]
  exact congrArg₂ Path.mk anchor parts

/-- A path and a plain name below it. -/
theorem join_of_plain (p : Path) (plain : IsPlainName name) :
    p / ofText name = ⟨p.anchor, p.parts ++ [name]⟩ := by
  rw [ofText_of_plain plain]
  rfl

/-- A text with a plain end names a path whose last name has that end. -/
theorem exists_name_of_end (dir : Path) (front last : Text) (none : slash ∉ last)
    {c : CodePoint} (member : c ∈ last) (other : c ≠ 0x2E) :
    ∃ start, (dir / ofText (front ++ last)).name = start ++ last ∧ IsPlainName (start ++ last) := by
  obtain ⟨pieces, start, split⟩ := Text.splitOn_append none front
  have inside : c ∈ start ++ last := List.mem_append_right _ member
  have dot : start ++ last ≠ [0x2E] := by
    intro same
    rw [same, List.mem_singleton] at inside
    exact other inside
  have back : start ++ last ≠ Files.Tree.back := by
    intro same
    rw [same, Files.Tree.back] at inside
    simp [other] at inside
  have some : start ++ last ≠ [] := List.ne_nil_of_mem inside
  have plain : slash ∉ start ++ last :=
    Text.notMem_of_mem_splitOn (split ▸ List.mem_append_right pieces List.mem_cons_self)
  have parts : (ofText (front ++ last)).parts = pieces.filter isPart ++ [start ++ last] := by
    have passes : isPart (start ++ last) = true := by
      simp only [isPart, Bool.and_eq_true, Bool.not_eq_true', List.isEmpty_eq_false_iff, bne_iff_ne]
      exact ⟨some, dot⟩
    rw [parts_ofText, split, List.filter_append, List.filter_cons_of_pos passes, List.filter_nil]
  refine ⟨start, ?_, some, plain, dot, back⟩
  have joined : ∃ others, (dir / ofText (front ++ last)).parts = others ++ [start ++ last] := by
    show ∃ others, (dir.join (ofText (front ++ last))).parts = others ++ [start ++ last]
    unfold join
    split
    · exact ⟨_, parts⟩
    · exact ⟨dir.parts ++ pieces.filter isPart, by rw [parts, List.append_assoc]⟩
  obtain ⟨others, joined⟩ := joined
  rw [name, joined, List.getLastD_concat]

/-- A path with parts is its parent and its name. -/
theorem parts_eq_concat (some : p.parts ≠ []) : p.parts = p.parent.parts ++ [p.name] := by
  unfold name
  rcases List.eq_nil_or_concat p.parts with nothing | ⟨others, last, form⟩
  · exact absurd nothing some
  · rw [parent, form, List.concat_eq_append, List.dropLast_concat, List.getLastD_concat]

theorem parts_ne_nil (some : p.name ≠ []) : p.parts ≠ [] := by
  intro nothing
  rw [name, nothing] at some
  exact some rfl

end Path

namespace Files.Tree

variable {tree tree' : Tree} {p : Path} {name : Text}

/-- A plain name below a path has its place right below the path's. -/
theorem placeOf_join (plain : Path.IsPlainName name) :
    tree.placeOf (p / Path.ofText name) = tree.placeOf p ++ [name] := by
  rw [Path.join_of_plain p plain]
  show walk (tree.startOf p) (p.parts ++ [name]) = _
  rw [walk_append]
  show (if name = back then _ else _) = _
  rw [if_neg plain.back]
  rfl

/-- The place of a path with parts is right below that of its parent, unless its name leads back. -/
theorem placeOf_of_parts (some : p.parts ≠ []) :
    tree.placeOf p = if p.name = back then (tree.placeOf p.parent).dropLast
      else tree.placeOf p.parent ++ [p.name] := by
  show walk (tree.startOf p) p.parts = _
  rw [Path.parts_eq_concat some, walk_append]
  rfl

/-- A path that ends in a plain name has its place right below its parent's. -/
theorem placeOf_eq_concat (some : p.parts ≠ []) (forward : p.name ≠ back) :
    tree.placeOf p = tree.placeOf p.parent ++ [p.name] := by
  rw [placeOf_of_parts some, if_neg forward]

/-- A path can be followed where something beside it can, if it can be followed anywhere. -/
theorem resolve_of_beside {l k : Location} (some : p.parts ≠ []) (plain : Path.IsPlainName name)
    (beside : tree.resolve (p.parent / Path.ofText name) = .ok l)
    (elsewhere : tree'.resolve p = .ok k) : tree.resolve p = .ok (tree.placeOf p) := by
  obtain ⟨named, followed⟩ := locate_eq_ok.mp (resolve_eq_ok.mp elsewhere)
  have near := (locate_eq_ok.mp (resolve_eq_ok.mp beside)).2
  rw [Path.join_of_plain _ plain] at near
  obtain ⟨above, toParent, toName⟩ := follow_append_ok.mp near
  obtain ⟨directory, _, _⟩ := follow_cons_ok.mp toName
  rw [Path.parts_eq_concat some] at followed
  obtain ⟨_, _, last⟩ := follow_append_ok.mp followed
  obtain ⟨_, short, _⟩ := follow_cons_ok.mp last
  have reached : tree.resolve p = .ok (if p.name = back then above.dropLast else above ++ [p.name]) := by
    refine resolve_eq_ok.mpr (locate_eq_ok.mpr ⟨named, ?_⟩)
    rw [Path.parts_eq_concat some]
    exact follow_append_ok.mpr ⟨above, toParent, follow_cons_ok.mpr ⟨directory, short, rfl⟩⟩
  rw [reached, resolve_eq_placeOf reached]

end Files.Tree

end ModulePackaging
