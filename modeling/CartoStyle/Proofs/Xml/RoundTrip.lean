import CartoStyle.Proofs.Dictionary
import CartoStyle.Proofs.Xml.Content
import CartoStyle.Proofs.Xml.Expansion
import CartoStyle.Xml.Tree

/-!
 # Reading back a written document

The document of an element is read as the same tree of elements. Its values are texts in which space
is settled, and its texts have their line ends settled and are trimmed; a text of blanks alone is
none (`Element.reread`). The line breaks that are written between the tags leave no trace, since
they stand behind the text of an element or between its children.
-/

namespace CartoStyle.Xml

open Text

/-! ## What is read back -/

/-- A value as it is read back. -/
def AttrValue.reread (value : AttrValue) : AttrValue :=
  .text (String.ofList (settledValue value.shown.toList))

/-- A text as it is read back. -/
def settledText (text : String) : Option String := OpenElement.text? [lineEnds false text.toList]

namespace Element

mutual

/-- An element as it is read back. -/
def reread : Element → Element
  | ⟨name, attributes, text, children⟩ =>
    ⟨name, attributes.mapValues AttrValue.reread, settledText (text.getD ""), rereadAll children⟩

/-- Elements as they are read back. -/
def rereadAll : List Element → List Element
  | [] => []
  | first :: others => reread first :: rereadAll others

end

theorem rereadAll_eq_map (elements : List Element) : rereadAll elements = elements.map reread := by
  induction elements with
  | nil => rfl
  | cons first others ih => rw [rereadAll, ih, List.map_cons]

end Element

/-! ## Tags without declarations -/

theorem declares_plain {name : String} (other : name ≠ "xmlns") :
    (QualifiedName.plain name).declares = false := by
  simp [QualifiedName.declares, QualifiedName.plain, declarationName, other]

theorem declares_of_mem_settledAttributes {attributes : Attributes}
    (plainNames : hasPlainNames attributes) {entry : QualifiedName × List Char}
    (member : entry ∈ settledAttributes attributes) : entry.1.declares = false := by
  obtain ⟨old, present, rfl⟩ := List.mem_map.mp member
  have both := List.all_eq_true.mp plainNames old present
  apply declares_plain
  simpa using (Bool.and_eq_true_iff.mp both).2

theorem declarations?_settledAttributes {attributes : Attributes}
    (plainNames : hasPlainNames attributes) :
    declarations? (settledAttributes attributes) = some [] := by
  have plain : ((settledAttributes attributes).filterMap fun entry =>
      if entry.1.declares then some (entry.1, String.ofList entry.2) else none) = [] := by
    apply List.filterMap_eq_nil_iff.mpr
    intro entry member
    simp [declares_of_mem_settledAttributes plainNames member]
  simp [declarations?, plain]

theorem mapM_spaceOf? (bindings : Bindings) (attributes : Attributes) :
    (settledAttributes attributes).mapM (fun (name, _) => do
      return (← spaceOf? bindings name.qualifier, name.name)) =
      some (attributes.keys.map fun name => (none, name)) := by
  rw [settledAttributes, Dictionary.keys]
  induction attributes.entries with
  | nil => rfl
  | cons entry entries ih =>
    rw [List.map_cons, List.mapM_cons, ih]
    rfl

theorem plainAttributes?_settledAttributes {attributes : Attributes}
    (plainNames : hasPlainNames attributes) (bindings : Bindings) :
    plainAttributes? bindings (settledAttributes attributes) =
      some (attributes.mapValues AttrValue.reread) := by
  have all : (settledAttributes attributes).filter (fun (name, _) => !name.declares) =
      settledAttributes attributes := by
    apply List.filter_eq_self.mpr
    intro entry member
    simp [declares_of_mem_settledAttributes plainNames member]
  have distinct : (attributes.keys.map fun name => ((none : Option String), name)).Nodup :=
    List.Pairwise.map _ (fun _ _ different same => different (Prod.mk.inj same).2)
      attributes.nodup_keys
  have values : Dictionary.ofList ((settledAttributes attributes).map fun (name, value) =>
      (name.name, AttrValue.text (String.ofList value))) =
      attributes.mapValues AttrValue.reread := by
    apply Dictionary.ext
    have entries : (settledAttributes attributes).map (fun (name, value) =>
        (name.name, AttrValue.text (String.ofList value))) =
        (attributes.mapValues AttrValue.reread).entries := by
      simp [settledAttributes, Dictionary.mapValues, QualifiedName.plain, AttrValue.reread]
    rw [entries]
    exact Dictionary.entries_ofList (attributes.mapValues AttrValue.reread).distinct
  rw [plainAttributes?, all, mapM_spaceOf?]
  simp only [Option.bind_eq_bind, Option.bind_some, if_pos distinct, values]

/-! ## Building the tree -/

/-- What a construction becomes with the events of some tokens. -/
def Construction.afterTokens? (tree : Construction) (tokens : List Token) : Option Construction :=
  ((expandTokens [] levelLimit true tokens).run 0).bind fun (events, _) =>
    events.foldlM Construction.step? tree

namespace Construction

variable {tree : Construction} (tokens : List Token)

/-- An event in front of those of some tokens is taken first. -/
theorem afterTokens?_of_expandTokens {more : List Token} (events : List Event)
    (expanded : expandTokens [] levelLimit true more = do
      let after ← expandTokens [] levelLimit true tokens
      return events ++ after) :
    tree.afterTokens? more = (events.foldlM step? tree).bind fun next =>
      next.afterTokens? tokens := by
  rw [afterTokens?, expanded]
  simp only [StateT.run_bind, StateT.run_pure, afterTokens?]
  cases (expandTokens [] levelLimit true tokens).run 0 with
  | none => cases events.foldlM step? tree <;> rfl
  | some found =>
    simp only [Option.bind_eq_bind, Option.bind_some, Option.pure_def, List.foldlM_append]

theorem afterTokens?_nil : tree.afterTokens? [] = some tree := rfl

theorem afterTokens?_start (name : QualifiedName) (attributes : Attributes) (closed : Bool) :
    tree.afterTokens? (.start name (spelledAttributes attributes) closed :: tokens) =
      (tree.step? (.start name (settledAttributes attributes) closed)).bind
        fun next => next.afterTokens? tokens := by
  have expanded := expandTokens_start [] tokens name attributes closed
  rw [afterTokens?_of_expandTokens tokens [_] expanded]
  simp

theorem afterTokens?_finish (name : QualifiedName) :
    tree.afterTokens? (.finish name :: tokens) =
      (tree.step? (.finish name)).bind fun next => next.afterTokens? tokens := by
  have expanded := expandTokens_finish [] tokens name
  rw [afterTokens?_of_expandTokens tokens [_] expanded]
  simp

/-- A text is one more piece of the innermost open element. -/
theorem afterTokens?_text {content : List Char} (nonempty : content ≠ []) (element : OpenElement)
    (others : List OpenElement) (roots : List Element) :
    afterTokens? ⟨element :: others, roots, []⟩ (.text (spelledInText content) :: tokens) =
      afterTokens? ⟨{ element with pieces := lineEnds false content :: element.pieces } :: others,
        roots, []⟩ tokens := by
  have event : textEvents (lineEnds false content) = [.text (lineEnds false content)] := by
    have settled := lineEnds_ne_nil nonempty false
    simp [textEvents, settled]
  have expanded := expandTokens_text [] tokens content
  rw [afterTokens?_of_expandTokens tokens _ expanded, event]
  rfl

theorem afterTokens?_lineBreak (level : Nat) (element : OpenElement) (others : List OpenElement)
    (roots : List Element) :
    afterTokens? ⟨element :: others, roots, []⟩ (.text (lineBreak level) :: tokens) =
      afterTokens? ⟨{ element with pieces := lineBreak level :: element.pieces } :: others,
        roots, []⟩ tokens := by
  have nonempty : lineBreak level ≠ [] := List.cons_ne_nil _ _
  have noReturn : '\r' ∉ lineBreak level := by
    intro member
    rcases mem_lineBreak member with same | same <;> cases same
  have text := afterTokens?_text tokens nonempty element others roots
  rwa [spelledInText_lineBreak, lineEnds_of_not_mem noReturn] at text

/-- The element that a start tag opens. -/
def opened (tree : Construction) (name : String) (attributes : Attributes) : OpenElement where
  name := .plain name
  attributes := attributes.mapValues AttrValue.reread
  bindings := tree.bindings

theorem step?_start (pending : List OpenElement) (roots : List Element) (name : String)
    {attributes : Attributes} (plainNames : hasPlainNames attributes) (closed : Bool) :
    step? ⟨pending, roots, []⟩ (.start (.plain name) (settledAttributes attributes) closed) =
      some
        (if closed then add ⟨pending, roots, []⟩ (opened ⟨pending, roots, []⟩ name attributes).close
        else ⟨opened ⟨pending, roots, []⟩ name attributes :: pending, roots, []⟩) := by
  have attributes_eq : attributes? ⟨pending, roots, []⟩ (settledAttributes attributes) =
      some (attributes.mapValues AttrValue.reread, bindings ⟨pending, roots, []⟩) := by
    simp [attributes?, declarations?_settledAttributes plainNames,
      plainAttributes?_settledAttributes plainNames]
  have open_ : open? ⟨pending, roots, []⟩ (.plain name) (settledAttributes attributes) =
      some (opened ⟨pending, roots, []⟩ name attributes) := by
    simp [open?, attributes_eq, QualifiedName.plain, declarationName, spaceOf?, opened]
  rw [step?, open_]
  cases closed <;> rfl

theorem step?_finish (element : OpenElement) (others : List OpenElement) (roots : List Element) :
    step? ⟨element :: others, roots, []⟩ (.finish element.name) =
      some (add ⟨others, roots, []⟩ element.close) := by
  have waiting : attributes? ⟨element :: others, roots, []⟩ [] =
      some (.empty, bindings ⟨element :: others, roots, []⟩) := rfl
  rw [step?, waiting]
  simp

end Construction

theorem OpenElement.text?_singleton (text : List Char) : text? [text] =
    if (trim text).isEmpty then none else some (String.ofList (trim text)) := by
  simp [text?]

theorem OpenElement.toList_getD_text? (text : List Char) :
    ((text? [text]).getD "").toList = trim text := by
  rw [text?_singleton]
  cases trim text <;> simp

/-- Blank pieces behind a text make no difference to it. -/
theorem OpenElement.text?_append_blanks {blanks pieces : List (List Char)}
    (blank : ∀ piece ∈ blanks, ∀ c ∈ piece, isBlank c) :
    text? (blanks ++ pieces) = text? pieces := by
  have inside : ∀ c ∈ blanks.reverse.flatten, isBlank c := by
    intro c member
    obtain ⟨piece, present, within⟩ := List.mem_flatten.mp member
    exact blank piece (List.mem_reverse.mp present) c within
  rw [text?, List.reverse_append, List.flatten_append, trim_append_blank inside, text?]

theorem isBlank_of_mem_lineBreak {level : Nat} {c : Char} (member : c ∈ lineBreak level) :
    isBlank c := by
  rcases mem_lineBreak member with rfl | rfl <;> decide

namespace Construction

/-- How many line breaks stand before some elements. -/
def breaks (fresh : Bool) (elements : List Element) : Nat :=
  if fresh then elements.length else elements.length - 1

/-- An open element once some children are written into it. -/
def filled (element : OpenElement) (level : Nat) (fresh : Bool) (children : List Element) :
    OpenElement :=
  { element with
    pieces := List.replicate (breaks fresh children) (lineBreak level) ++ element.pieces
    children := (Element.rereadAll children).reverse ++ element.children }

/-- The text of an element is its first piece, if there is any. -/
theorem afterTokens?_textTokens (content : List Char) (tokens : List Token)
    {element : OpenElement} (textless : element.pieces = []) (others : List OpenElement)
    (roots : List Element) :
    ∃ pieces, OpenElement.text? pieces = OpenElement.text? [lineEnds false content] ∧
      afterTokens? ⟨element :: others, roots, []⟩
          (textTokens (spelledInText content) ++ tokens) =
        afterTokens? ⟨{ element with pieces } :: others, roots, []⟩ tokens := by
  by_cases empty : content = []
  · subst empty
    refine ⟨[], rfl, ?_⟩
    rw [← textless]
    rfl
  · have read := afterTokens?_text tokens empty element others roots
    have shown : textTokens (spelledInText content) = [.text (spelledInText content)] := by
      simp [textTokens, spelledInText_ne_nil empty]
    refine ⟨[lineEnds false content], rfl, ?_⟩
    rw [shown, List.singleton_append, read, textless]

/-- The pieces that line breaks add to an element make no difference to it. -/
theorem close_filled {element : OpenElement} {text : Option String}
    (read : OpenElement.text? element.pieces = text) (level : Nat) (fresh : Bool)
    (children : List Element) :
    (filled element level fresh children).close =
      ⟨element.name.name, element.attributes, text,
        element.children.reverse ++ Element.rereadAll children⟩ := by
  have blank : ∀ piece ∈ List.replicate (breaks fresh children) (lineBreak level),
      ∀ c ∈ piece, isBlank c := by
    intro piece present c member
    rw [(List.mem_replicate.mp present).2] at member
    exact isBlank_of_mem_lineBreak member
  simp [OpenElement.close, filled, OpenElement.text?_append_blanks blank, read]

/-- The end tag of an element, on a line of its own or not, completes it. -/
theorem afterTokens?_ending (broken : Bool) (level : Nat) (tokens : List Token)
    (element : OpenElement) (others : List OpenElement) (roots : List Element) :
    afterTokens? ⟨element :: others, roots, []⟩
        ((if broken then [] else [.text (lineBreak level)]) ++ .finish element.name :: tokens) =
      afterTokens? (add ⟨others, roots, []⟩ element.close) tokens := by
  cases broken with
  | true =>
    rw [if_pos rfl, List.nil_append, afterTokens?_finish, step?_finish]
    rfl
  | false =>
    have same : OpenElement.close { element with pieces := lineBreak level :: element.pieces } =
        element.close := by
      have blank : ∀ piece ∈ [lineBreak level], ∀ c ∈ piece, isBlank c := by
        intro piece present c member
        rw [List.mem_singleton.mp present] at member
        exact isBlank_of_mem_lineBreak member
      have text : OpenElement.text? ([lineBreak level] ++ element.pieces) =
          OpenElement.text? element.pieces := OpenElement.text?_append_blanks blank
      rw [List.singleton_append] at text
      simp [OpenElement.close, text]
    have finish := step?_finish { element with pieces := lineBreak level :: element.pieces }
      others roots
    rw [if_neg (by simp), List.singleton_append, afterTokens?_lineBreak, afterTokens?_finish,
      finish, same]
    rfl

/-- An element is complete after what is written between its tags, if its children are. -/
theorem afterTokens?_innerTokens (name : String) (attributes : Attributes) (text : Option String)
    {children : List Element}
    (siblings : ∀ level fresh tokens element others roots,
      afterTokens? ⟨element :: others, roots, []⟩
          (Element.siblingTokens level fresh children ++ tokens) =
        afterTokens? ⟨filled element level fresh children :: others, roots, []⟩ tokens)
    (level : Nat) (tokens : List Token) (pending : List OpenElement) (roots : List Element) :
    afterTokens? ⟨opened ⟨pending, roots, []⟩ name attributes :: pending, roots, []⟩
        (Element.innerTokens level name text children ++ tokens) =
      afterTokens? (add ⟨pending, roots, []⟩ (Element.reread ⟨name, attributes, text, children⟩))
        tokens := by
  have textless : (opened ⟨pending, roots, []⟩ name attributes).pieces = [] := rfl
  obtain ⟨pieces, same, first⟩ := afterTokens?_textTokens (text.getD "").toList
    (Element.siblingTokens (level + 1) text.isNone children ++
      ((if children.isEmpty then [] else [.text (lineBreak level)]) ++ .finish (.plain name) ::
        tokens))
    textless pending roots
  have last := afterTokens?_ending children.isEmpty level tokens
    (filled { opened ⟨pending, roots, []⟩ name attributes with pieces } (level + 1) text.isNone
      children) pending roots
  have named : (filled { opened ⟨pending, roots, []⟩ name attributes with pieces } (level + 1)
      text.isNone children).name = .plain name := rfl
  rw [named, close_filled same] at last
  rw [siblings, last] at first
  rw [Element.innerTokens, List.append_assoc, List.append_assoc, List.append_assoc]
  exact first

mutual

/-- The tokens of an element add it to the tree as it is read back. -/
theorem afterTokens?_tokens : (element : Element) → element.every Element.hasNames →
    ∀ level tokens pending roots,
    afterTokens? ⟨pending, roots, []⟩ (element.tokens level ++ tokens) =
      afterTokens? (add ⟨pending, roots, []⟩ element.reread) tokens
  | ⟨name, attributes, text, children⟩, named, level, tokens, pending, roots => by
    obtain ⟨own, inner⟩ := Bool.and_eq_true_iff.mp named
    obtain ⟨_, plainNames⟩ := Bool.and_eq_true_iff.mp own
    have siblings := afterTokens?_siblingTokens children inner
    rw [Element.tokens]
    split
    · rename_i bare
      obtain ⟨textless, childless⟩ := Bool.and_eq_true_iff.mp bare
      obtain rfl := Option.isNone_iff_eq_none.mp textless
      obtain rfl := List.isEmpty_iff.mp childless
      rw [List.cons_append, List.nil_append, afterTokens?_start, step?_start _ _ _ plainNames]
      rfl
    · have content := afterTokens?_innerTokens name attributes text siblings level tokens pending
        roots
      rw [List.cons_append, afterTokens?_start, step?_start _ _ _ plainNames]
      exact content

theorem afterTokens?_siblingTokens : (elements : List Element) →
    Element.everyOf Element.hasNames elements → ∀ level fresh tokens element others roots,
    afterTokens? ⟨element :: others, roots, []⟩
        (Element.siblingTokens level fresh elements ++ tokens) =
      afterTokens? ⟨filled element level fresh elements :: others, roots, []⟩ tokens
  | [], _, level, fresh, tokens, element, others, roots => by
    cases fresh <;> rfl
  | first :: rest, named, level, fresh, tokens, element, others, roots => by
    obtain ⟨head, tail⟩ := Bool.and_eq_true_iff.mp named
    have one := afterTokens?_tokens first head level
      (Element.siblingTokens level true rest ++ tokens)
    have more := afterTokens?_siblingTokens rest tail level true tokens
    cases fresh with
    | false =>
      have shape : filled { element with children := first.reread :: element.children } level true
          rest = filled element level false (first :: rest) := by
        simp [filled, breaks, Element.rereadAll]
      rw [Element.siblingTokens, if_neg (by simp), List.nil_append, List.append_assoc, one, ← shape]
      exact more ..
    | true =>
      have shape : filled { element with
            pieces := lineBreak level :: element.pieces
            children := first.reread :: element.children } level true rest =
          filled element level true (first :: rest) := by
        simp [filled, breaks, Element.rereadAll, List.replicate_succ']
      rw [Element.siblingTokens, if_pos rfl, List.singleton_append, List.cons_append,
        afterTokens?_lineBreak, List.append_assoc, one, ← shape]
      exact more ..

end

end Construction

/-! ## The whole document -/

namespace Scanner

/-- The first line of a document. -/
theorem run_declaration (after : List Char) :
    declaration.run (Xml.declaration.toList ++ after) = some ((), after) := rfl

/-- Nothing but spaces stands before a tag. -/
theorem run_remark_startTag {c : Char} (start : isNameStart c) {blanks : List Char}
    (inside : ∀ d ∈ blanks, isSpace d) (after : List Char) :
    remark.run (blanks ++ '<' :: c :: after) = some (none, '<' :: c :: after) := by
  obtain ⟨bang, question, _, _⟩ := ne_of_isNameStart start
  have bang : ('!' == c) = false := beq_eq_false_iff_ne.mpr bang.symm
  have question : ('?' == c) = false := beq_eq_false_iff_ne.mpr question.symm
  have gap : spaces.run (blanks ++ '<' :: c :: after) = some ((), '<' :: c :: after) := by
    rw [spaces, run_bind_of_run (run_takeWhile blanks inside (stops_cons.mpr rfl))]
    rfl
  rw [remark, run_bind_of_run gap]
  simp [List.isPrefixOf, bang, question]

theorem run_remarks_startTag {c : Char} (start : isNameStart c) {blanks : List Char}
    (inside : ∀ d ∈ blanks, isSpace d) (after : List Char) :
    remarks.run (blanks ++ '<' :: c :: after) = some ((), '<' :: c :: after) := by
  rw [remarks, run_bind_of_run (run_many_of_none (run_remark_startTag start inside after))]
  rfl

theorem run_remarks_lineEnd : remarks.run ['\n'] = some ((), []) := by
  have nothing : remark.run ['\n'] = some (none, []) := rfl
  rw [remarks, run_bind_of_run (run_many_of_none nothing)]
  rfl

/-- The root of a document, with all that is in it. -/
theorem run_root {root : Element} (named : root.every Element.hasNames) (after : List Char) :
    Scanner.root.run (root.chars 0 ++ after) =
      if root.every Element.hasXmlChars then some (root.tokens 0, after) else none := by
  obtain ⟨name, attributes, text, children⟩ := root
  obtain ⟨own, inner⟩ := Bool.and_eq_true_iff.mp named
  obtain ⟨plain, plainNames⟩ := Bool.and_eq_true_iff.mp own
  have first := run_startTag plain plainNames (text.isNone && children.isEmpty)
    (if text.isNone && children.isEmpty then after
      else Element.innerChars 0 name text children after)
  rw [Element.chars_append, Scanner.root, run_bind, first, Element.every, Element.hasXmlChars,
    Element.tokens]
  cases possible : hasXmlValues attributes with
  | false => simp
  | true =>
    cases bare : text.isNone && children.isEmpty with
    | true =>
      obtain ⟨textless, childless⟩ := Bool.and_eq_true_iff.mp bare
      obtain rfl := Option.isNone_iff_eq_none.mp textless
      obtain rfl := List.isEmpty_iff.mp childless
      simp [Element.everyOf]
    | false =>
      have siblings := run_contentFrom_siblingChars children inner
      have inside : content.run (Element.innerChars 0 name text children after) = _ :=
        run_contentFrom_innerChars plain text siblings 0 0 after
      rw [if_pos rfl, run_contentFrom_none] at inside
      simp only [if_true, Option.bind_some, Bool.false_eq_true, if_false, run_bind, inside,
        Bool.true_and]
      cases (text.getD "").toList.all isXmlChar && Element.everyOf Element.hasXmlChars children with
      | false => rfl
      | true => simp [leadingTokens, Element.innerTokens]

/-- A document is read as the tokens of its root. -/
theorem run_document {root : Element} (named : root.every Element.hasNames) :
    document.run root.document.toList =
      if root.every Element.hasXmlChars then some (([], root.tokens 0), []) else none := by
  obtain ⟨c, others, start, shape⟩ : ∃ c others, isNameStart c ∧
      root.chars 0 ++ ['\n'] = '<' :: c :: others := by
    obtain ⟨name, attributes, text, children⟩ := root
    obtain ⟨own, _⟩ := Bool.and_eq_true_iff.mp named
    obtain ⟨c, others, name_eq, start⟩ := toList_of_isPlainName (Bool.and_eq_true_iff.mp own).1
    exact ⟨c, _, start, by rw [Element.chars_append, name_eq, List.cons_append]⟩
  have whole : root.document.toList =
      Xml.declaration.toList ++ (lineBreak 0 ++ '<' :: c :: others) := by
    rw [← shape, Element.document, String.toList_ofList]
    simp
  have unmarked : (takes "\uFEFF").run (Xml.declaration.toList ++
      (lineBreak 0 ++ '<' :: c :: others)) =
      some (false, Xml.declaration.toList ++ (lineBreak 0 ++ '<' :: c :: others)) := rfl
  have declared : (sees "<?xml ").run (Xml.declaration.toList ++
      (lineBreak 0 ++ '<' :: c :: others)) =
      some (true, Xml.declaration.toList ++ (lineBreak 0 ++ '<' :: c :: others)) := rfl
  have broken : remarks.run (lineBreak 0 ++ '<' :: c :: others) = _ :=
    run_remarks_startTag start (by decide) others
  have again : remarks.run ('<' :: c :: others) = _ :=
    @run_remarks_startTag c start [] (by decide) others
  have gap : spaces.run ('<' :: c :: others) = some ((), '<' :: c :: others) :=
    run_spaces_of_stops (stops_cons.mpr rfl)
  have untyped : (sees "<!DOCTYPE").run ('<' :: c :: others) =
      some (false, '<' :: c :: others) := by
    have bang : ('!' == c) = false := beq_eq_false_iff_ne.mpr (ne_of_isNameStart start).1.symm
    simp [List.isPrefixOf, bang]
  have tokens := run_root named ['\n']
  rw [shape] at tokens
  rw [whole, document, run_bind_of_run unmarked, run_bind_of_run declared, if_pos rfl,
    run_bind_of_run (run_declaration _), run_bind_of_run broken, run_bind_of_run gap,
    run_bind_of_run untyped, if_neg (by simp), run_bind_of_run (run_pure ..)]
  simp only
  rw [run_bind_of_run again, run_bind_of_run gap, run_bind, tokens]
  split
  · rw [Option.bind_some]
    simp only
    rw [run_bind_of_run run_remarks_lineEnd]
    rfl
  · rfl

end Scanner

/-- What is read back from a document: its root with settled values and texts, or nothing if there
are characters in it that documents may not hold. -/
theorem Element.ofText?_document {root : Element} (named : root.every hasNames) :
    Element.ofText? root.document = if root.every hasXmlChars then some root.reread else none := by
  rw [Element.ofText?, Scanner.run_document named]
  split
  · have built := Construction.afterTokens?_tokens root named 0 [] [] []
    rw [List.append_nil, Construction.afterTokens?_nil, Construction.afterTokens?] at built
    obtain ⟨⟨events, count⟩, expanded, folded⟩ := Option.bind_eq_some_iff.mp built
    simp [Event.ofTokens?, expanded, Element.ofEvents?, folded, Construction.add,
      Construction.root?]
  · rfl

end CartoStyle.Xml
