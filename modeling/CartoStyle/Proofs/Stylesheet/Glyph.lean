import CartoStyle.Proofs.Xml.Settled
import CartoStyle.Stylesheet.Glyph

/-!
# Paths of glyphs

The path that is written for a mark ends in the file of its glyph, whatever the directory, and no
two marks share a file. So the path leads back to the mark (`markOfPath?_path`), also once space in
it is settled, since neither the files nor what goes before them has to do with space
(`markOfPath?_settledValue`). No other paths lead to a mark than those that end in the file of its
glyph (`markOfPath?_eq_some_iff`), so look-up in either direction undoes the other
(`Glyphs.markOfPath?_resolve`).
-/

namespace CartoStyle.Stylesheet

open Text (isVisible)
open Xml (settledValue)

/-! ## The last part of a path -/

theorem lastPart_append {file : List Char} (inside : ∀ c ∈ file, isPathSeparator c = false)
    {c : Char} (separates : isPathSeparator c) (before : List Char) :
    lastPart (before ++ c :: file) = file := by
  have inside : ∀ d ∈ file.reverse, (!isPathSeparator d) = true := by
    intro d member
    rw [inside d (List.mem_reverse.mp member)]
    rfl
  have stop : Text.Stops (fun d => !isPathSeparator d) (c :: before.reverse) :=
    Text.stops_cons.mpr (by simp [separates])
  have taken := Text.takeWhile_append_of_stops inside stop
  have shape : (before ++ c :: file).reverse = file.reverse ++ c :: before.reverse := by simp
  rw [lastPart, shape, taken, List.reverse_reverse]

theorem lastPart_of_forall {file : List Char} (inside : ∀ c ∈ file, isPathSeparator c = false) :
    lastPart file = file := by
  have inside : ∀ d ∈ file.reverse, (!isPathSeparator d) = true := by
    intro d member
    rw [inside d (List.mem_reverse.mp member)]
    rfl
  rw [lastPart, Text.takeWhile_of_forall inside, List.reverse_reverse]

/-- A path is a file alone, or there is a separator in front of its last part. -/
theorem exists_separator (path : List Char) :
    (∀ c ∈ path, isPathSeparator c = false) ∨
      ∃ before c file, path = before ++ c :: file ∧ isPathSeparator c ∧
        ∀ d ∈ file, isPathSeparator d = false := by
  induction path with
  | nil => exact .inl fun _ member => nomatch member
  | cons c path ih =>
    rcases ih with inside | ⟨before, d, file, rfl, separates, inside⟩
    · cases here : isPathSeparator c with
      | true => exact .inr ⟨[], c, path, rfl, here, inside⟩
      | false =>
        apply Or.inl
        intro d member
        rcases List.mem_cons.mp member with rfl | later
        · exact here
        · exact inside d later
    · exact .inr ⟨c :: before, d, file, rfl, separates, inside⟩

theorem isPathSeparator_iff {c : Char} : isPathSeparator c = true ↔ c = '/' ∨ c = '\\' := by
  simp [isPathSeparator]

/-- Settling space comes to the same before and after the last part is taken. -/
theorem lastPart_settledValue (path : List Char) :
    lastPart (settledValue path) = settledValue (lastPart path) := by
  have settled {file : List Char} (inside : ∀ c ∈ file, isPathSeparator c = false) :
      ∀ c ∈ settledValue file, isPathSeparator c = false := by
    intro c member
    rcases Xml.mem_settledValue member with rfl | ⟨_, within⟩
    · decide
    · exact inside c within
  rcases exists_separator path with inside | ⟨before, c, file, rfl, separates, inside⟩
  · rw [lastPart_of_forall inside, lastPart_of_forall (settled inside)]
  · have cut : settledValue (before ++ c :: file) =
        settledValue before ++ c :: settledValue file := by
      rcases isPathSeparator_iff.mp separates with rfl | rfl
      · exact Xml.settledValue_append before (by decide) file
      · exact Xml.settledValue_append before (by decide) file
    rw [cut, lastPart_append inside separates, lastPart_append (settled inside) separates]

/-! ## Marks -/

theorem glyphFiles_sound : ∀ glyph ∈ glyphFiles,
    (∀ c ∈ glyph.2.toList, isVisible c ∧ isPathSeparator c = false) ∧
      markOfFile? glyph.2 = some glyph.1 := by
  decide

theorem glyphFile_eq_settledValue_iff {glyph : String × String} (member : glyph ∈ glyphFiles)
    (file : List Char) :
    glyph.2 = String.ofList (settledValue file) ↔ glyph.2 = String.ofList file := by
  have visible : ∀ c ∈ glyph.2.toList, isVisible c := fun c inside =>
    ((glyphFiles_sound glyph member).1 c inside).1
  have unlisted (text : List Char) : glyph.2 = String.ofList text ↔ text = glyph.2.toList := by
    rw [← String.toList_inj, String.toList_ofList]
    exact eq_comm
  rw [unlisted, unlisted, Xml.settledValue_eq_iff visible]

/-- Settling space makes no difference to the mark that a path leads to. -/
theorem markOfPath?_settledValue (path : String) :
    markOfPath? (String.ofList (settledValue path.toList)) = markOfPath? path := by
  have same : ∀ glyphs : List (String × String), glyphs ⊆ glyphFiles →
      glyphs.find? (fun glyph => glyph.2 = String.ofList (settledValue (lastPart path.toList))) =
        glyphs.find? (fun glyph => glyph.2 = String.ofList (lastPart path.toList)) := by
    intro glyphs known
    induction glyphs with
    | nil => rfl
    | cons glyph glyphs ih =>
      have first := glyphFile_eq_settledValue_iff (known (List.mem_cons_self ..))
        (lastPart path.toList)
      have rest := ih fun _ member => known (List.mem_cons_of_mem _ member)
      simp only [List.find?_cons, first, rest]
  rw [markOfPath?, markOfPath?, String.toList_ofList, lastPart_settledValue, markOfFile?,
    markOfFile?, same glyphFiles fun _ member => member]

theorem glyphFile?_eq_some_iff {name file : String} :
    glyphFile? name = some file ↔ (name, file) ∈ glyphFiles := by
  constructor
  · intro found
    obtain ⟨before, after, shape, _⟩ := List.lookup_eq_some_iff.mp found
    rw [shape]
    exact List.mem_append_right _ (List.mem_cons_self ..)
  · have listed : ∀ glyph ∈ glyphFiles, glyphFile? glyph.1 = some glyph.2 := by decide
    exact listed (name, file)

theorem markOfFile?_eq_some_iff {name file : String} :
    markOfFile? file = some name ↔ glyphFile? name = some file := by
  rw [glyphFile?_eq_some_iff]
  constructor
  · intro found
    obtain ⟨glyph, first, rfl⟩ := Option.map_eq_some_iff.mp found
    have same : glyph.2 = file := by simpa using List.find?_some first
    rw [← same]
    exact List.mem_of_find?_eq_some first
  · intro member
    exact (glyphFiles_sound _ member).2

/-- The path of a glyph leads back to its mark. -/
theorem markOfPath?_path (glyphs : Glyphs) {name file : String}
    (found : glyphFile? name = some file) : markOfPath? (glyphs.path file) = some name := by
  obtain ⟨sound, back⟩ := glyphFiles_sound _ (glyphFile?_eq_some_iff.mp found)
  have inside : ∀ c ∈ file.toList, isPathSeparator c = false := fun c member => (sound c member).2
  have alone : lastPart file.toList = file.toList := lastPart_of_forall inside
  have last : lastPart (glyphs.path file).toList = file.toList := by
    rw [Glyphs.path]
    split
    · exact alone
    · split
      · exact alone
      · rw [String.toList_ofList, lastPart_append inside (by decide)]
  rw [markOfPath?, last, String.ofList_toList, back]

/-! ## Look-up in both directions -/

/-- A file is what stands behind the last slash or backslash of a path, or all of it. -/
inductive IsLastPart : List Char → List Char → Prop
  | alone {file : List Char} (slash : '/' ∉ file) (backslash : '\\' ∉ file) : IsLastPart file file
  | behind {c : Char} {file : List Char} (directory : List Char) (parts : c = '/' ∨ c = '\\')
      (slash : '/' ∉ file) (backslash : '\\' ∉ file) : IsLastPart file (directory ++ c :: file)

theorem isPathSeparator_eq_false_of {file : List Char} (slash : '/' ∉ file)
    (backslash : '\\' ∉ file) : ∀ c ∈ file, isPathSeparator c = false := by
  intro c member
  apply Bool.eq_false_iff.mpr
  intro separates
  rcases isPathSeparator_iff.mp separates with rfl | rfl
  · exact slash member
  · exact backslash member

theorem isLastPart_iff {file path : List Char} : IsLastPart file path ↔ lastPart path = file := by
  constructor
  · rintro (⟨slash, backslash⟩ | ⟨directory, parts, slash, backslash⟩)
    · exact lastPart_of_forall (isPathSeparator_eq_false_of slash backslash)
    · exact lastPart_append (isPathSeparator_eq_false_of slash backslash)
        (isPathSeparator_iff.mpr parts) directory
  · rintro rfl
    have outside {part : List Char} (inside : ∀ c ∈ part, isPathSeparator c = false) :
        '/' ∉ part ∧ '\\' ∉ part :=
      ⟨fun member => absurd (inside _ member) (by decide),
        fun member => absurd (inside _ member) (by decide)⟩
    rcases exists_separator path with inside | ⟨directory, c, file, rfl, separates, inside⟩
    · rw [lastPart_of_forall inside]
      exact .alone (outside inside).1 (outside inside).2
    · rw [lastPart_append inside separates]
      exact .behind directory (isPathSeparator_iff.mp separates) (outside inside).1
        (outside inside).2

/-- A path leads to the mark whose glyph its last part is, and to no other. -/
theorem markOfPath?_eq_some_iff {path name : String} :
    markOfPath? path = some name ↔
      ∃ file, glyphFile? name = some file ∧ IsLastPart file.toList path.toList := by
  rw [markOfPath?, markOfFile?_eq_some_iff]
  constructor
  · intro found
    exact ⟨_, found, isLastPart_iff.mpr String.toList_ofList.symm⟩
  · rintro ⟨file, found, last⟩
    rw [isLastPart_iff.mp last, String.ofList_toList, found]

theorem exists_glyphFile? {path name : String} (found : markOfPath? path = some name) :
    ∃ file, glyphFile? name = some file := by
  obtain ⟨file, known, -⟩ := markOfPath?_eq_some_iff.mp found
  exact ⟨file, known⟩

namespace Glyphs

variable {glyphs : Glyphs} {name : String}

theorem resolve_eq_ok_iff {path : String} : glyphs.resolve name = .ok path ↔
    ∃ file, glyphFile? name = some file ∧ glyphs.path file = path := by
  rw [resolve]
  cases glyphFile? name <;> simp

theorem resolve_of_glyphFile? {file : String} (known : glyphFile? name = some file) :
    glyphs.resolve name = .ok (glyphs.path file) := by
  rw [resolve, known]

theorem resolve_eq_error_iff {problem : Problem} : glyphs.resolve name = .error problem ↔
    glyphFile? name = none ∧ problem = .unsupportedSymbol name := by
  rw [resolve]
  cases glyphFile? name <;> simp [eq_comm]

end Glyphs

/-- Whatever the directory of the glyphs, the path of a mark leads back to it, wherever it is read;
a name has no path exactly if it is not listed. And whatever the path, the mark that it leads to is
the one whose glyph is its last part. -/
theorem Glyphs.markOfPath?_resolve (glyphs : Glyphs) (name : String) :
    (∀ path, glyphs.resolve name = .ok path → markOfPath? path = some name) ∧
    (∀ problem, glyphs.resolve name = .error problem ↔
      problem = .unsupportedSymbol name ∧ ∀ file, (name, file) ∉ glyphFiles) ∧
    ∀ path, markOfPath? path = some name ↔
      ∃ file, (name, file) ∈ glyphFiles ∧ IsLastPart file.toList path.toList := by
  refine ⟨fun path resolved => ?_, fun problem => ?_, fun path => ?_⟩
  · obtain ⟨file, known, rfl⟩ := resolve_eq_ok_iff.mp resolved
    exact markOfPath?_path glyphs known
  · rw [resolve_eq_error_iff, Option.eq_none_iff_forall_ne_some, and_comm]
    simp only [ne_eq, glyphFile?_eq_some_iff]
  · simp only [markOfPath?_eq_some_iff, glyphFile?_eq_some_iff]

theorem Glyphs.markOfPath?_resolve_star :
    Glyphs.resolve ⟨some "maps\\glyphs//"⟩ "Star" = .ok "maps\\glyphs/star.svg" ∧
    markOfPath? "maps\\glyphs/star.svg" = some "Star" := by
  have resolved : Glyphs.resolve ⟨some "maps\\glyphs//"⟩ "Star" = .ok "maps\\glyphs/star.svg" :=
    rfl
  exact ⟨resolved, (Glyphs.markOfPath?_resolve _ _).1 _ resolved⟩

end CartoStyle.Stylesheet
