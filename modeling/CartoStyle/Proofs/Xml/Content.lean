import CartoStyle.Proofs.Xml.Markup

/-!
 # The content of a written element

An element is written as its tags, its text and its children, with a line break in front of every
tag that does not follow the text. `Element.tokens` says which tokens these are, and the scanner
reads exactly those off the written form (`run_contentFrom_chars`), as long as the names are names.
If a value or a text has a character that documents may not hold, nothing is read at all.
-/

namespace CartoStyle.Xml

open Scanner Text

/-! ## Conditions on the elements of a tree -/

namespace Element

mutual

/-- Every element of a tree meets a condition on its name, attributes and text. -/
def every (p : String → Attributes → Option String → Bool) : Element → Bool
  | ⟨name, attributes, text, children⟩ => p name attributes text && everyOf p children

/-- Every element of some trees meets a condition. -/
def everyOf (p : String → Attributes → Option String → Bool) : List Element → Bool
  | [] => true
  | first :: others => every p first && everyOf p others

end

theorem everyOf_eq_all (p : String → Attributes → Option String → Bool) (elements : List Element) :
    everyOf p elements = elements.all (every p) := by
  induction elements with
  | nil => rfl
  | cons first others ih => rw [everyOf, ih, List.all_cons]

/-- The name of an element and those of its attributes are names without qualifiers. -/
def hasNames (name : String) (attributes : Attributes) (_ : Option String) : Bool :=
  isPlainName name && hasPlainNames attributes

/-- Documents may hold the values and the text of an element. -/
def hasXmlChars (_ : String) (attributes : Attributes) (text : Option String) : Bool :=
  hasXmlValues attributes && (text.getD "").toList.all isXmlChar

end Element

/-! ## The tokens of an element -/

/-- The token of a text, if there is any. -/
def textTokens (text : List Char) : List Token := if text.isEmpty then [] else [.text text]

namespace Element

mutual

/-- The tokens of an element that is written at some depth. -/
def tokens (depth : Nat) : Element → List Token
  | ⟨name, attributes, text, children⟩ =>
    if text.isNone && children.isEmpty then
      [.start (.plain name) (spelledAttributes attributes) true]
    else
      .start (.plain name) (spelledAttributes attributes) false ::
        (textTokens (spelledInText (text.getD "").toList) ++
          (siblingTokens (depth + 1) text.isNone children ++
            ((if children.isEmpty then [] else [.text (lineBreak depth)]) ++
              [.finish (.plain name)])))

/-- The tokens of elements one after another, the first on a line of its own if `fresh`. -/
def siblingTokens (depth : Nat) (fresh : Bool) : List Element → List Token
  | [] => []
  | first :: others =>
    (if fresh then [.text (lineBreak depth)] else []) ++
      (tokens depth first ++ siblingTokens depth true others)

end

/-- An element as one string of characters begins with the bracket of its tag. -/
theorem chars_eq_cons (depth : Nat) (element : Element) :
    ∃ others, element.chars depth = '<' :: others := by
  obtain ⟨name, attributes, text, children⟩ := element
  rw [chars]
  split <;> exact ⟨_, rfl⟩

end Element

/-! ## Reading content -/

/-- The rest of a content in which some elements are open. -/
def contentFrom (depth : Option Nat) : Scanner (List Token) :=
  unfold contentStep advances_contentStep depth

/-- Some tokens in front of those that are read, if anything is read at all. -/
def leadingTokens (known : Bool) (tokens : List Token) (found : Option (List Token × List Char)) :
    Option (List Token × List Char) :=
  if known then found.map fun (others, left) => (tokens ++ others, left) else none

@[simp] theorem leadingTokens_leadingTokens (known known' : Bool) (tokens tokens' : List Token)
    (found : Option (List Token × List Char)) :
    leadingTokens known tokens (leadingTokens known' tokens' found) =
      leadingTokens (known && known') (tokens ++ tokens') found := by
  cases known with
  | false => rfl
  | true =>
    cases known' with
    | false => rfl
    | true => cases found <;> simp [leadingTokens]

@[simp] theorem leadingTokens_nil (found : Option (List Token × List Char)) :
    leadingTokens true [] found = found := by
  cases found <;> rfl

theorem run_contentFrom_none (text : List Char) :
    (contentFrom none).run text = some ([], text) := by
  rw [contentFrom, run_unfold]
  rfl

theorem run_contentFrom (depth : Nat) (c : Char) (text : List Char) :
    (contentFrom (some depth)).run (c :: text) =
      match token.run (c :: text) with
      | none => none
      | some (token, after) =>
        leadingTokens true [token] ((contentFrom (depthAfter depth token)).run after) := by
  rw [contentFrom, run_unfold, contentStep, run_bind_of_run (run_atEnd _), if_neg (by simp),
    run_bind]
  cases token.run (c :: text) with
  | none => rfl
  | some found => rfl

/-- What begins like the tag of a name is a start tag. -/
theorem run_token_of_isNameStart {c : Char} (start : isNameStart c) (text : List Char) :
    token.run ('<' :: c :: text) = startTag.run ('<' :: c :: text) := by
  obtain ⟨bang, question, slash, _⟩ := ne_of_isNameStart start
  have bang : ('!' == c) = false := beq_eq_false_iff_ne.mpr bang.symm
  have question : ('?' == c) = false := beq_eq_false_iff_ne.mpr question.symm
  have slash : ('/' == c) = false := beq_eq_false_iff_ne.mpr slash.symm
  simp [token, List.isPrefixOf, bang, question, slash]

theorem run_token_of_ne {c : Char} (other : c ≠ '<') (after : List Char) :
    token.run (c :: after) = Scanner.text.run (c :: after) := by
  have bracket : ('<' == c) = false := beq_eq_false_iff_ne.mpr other.symm
  simp [token, List.isPrefixOf, bracket]

theorem run_contentFrom_startTag {name : String} (plain : isPlainName name)
    {attributes : Attributes} (plainNames : hasPlainNames attributes) (closed : Bool) (depth : Nat)
    (after : List Char) :
    (contentFrom (some depth)).run
        ('<' :: (name.toList ++ (attributeChars attributes ++ (tagEnding closed ++ after)))) =
      leadingTokens (hasXmlValues attributes)
        [.start (.plain name) (spelledAttributes attributes) closed]
        ((contentFrom (some (if closed then depth else depth + 1))).run after) := by
  obtain ⟨c, others, shape, start⟩ := toList_of_isPlainName plain
  have tag := run_startTag plain plainNames closed after
  rw [run_contentFrom, shape, List.cons_append, run_token_of_isNameStart start,
    ← List.cons_append, ← shape, tag]
  cases hasXmlValues attributes with
  | false => rfl
  | true => cases closed <;> rfl

theorem run_contentFrom_endTag {name : String} (plain : isPlainName name) (depth : Nat)
    (after : List Char) :
    (contentFrom (some depth)).run ('<' :: '/' :: (name.toList ++ '>' :: after)) =
      leadingTokens true [.finish (.plain name)]
        ((contentFrom (if depth = 0 then none else some (depth - 1))).run after) := by
  have tag : token.run ('<' :: '/' :: (name.toList ++ '>' :: after)) =
      some (.finish (.plain name), after) := by
    rw [← run_endTag plain after]
    rfl
  rw [run_contentFrom, tag]
  rfl

/-- A text up to the tag behind it. -/
theorem run_contentFrom_text (content : List Char) (depth : Nat) (after : List Char) :
    (contentFrom (some depth)).run (spelledInText content ++ '<' :: after) =
      leadingTokens (content.all isXmlChar) (textTokens (spelledInText content))
        ((contentFrom (some depth)).run ('<' :: after)) := by
  by_cases empty : content = []
  · subst empty
    exact (leadingTokens_nil _).symm
  · have scanned := run_text empty after
    have nonempty := spelledInText_ne_nil empty
    obtain ⟨c, others, shape⟩ := List.exists_cons_of_ne_nil nonempty
    have other : c ≠ '<' := by
      obtain ⟨d, _, spelled⟩ :=
        List.mem_flatMap.mp (shape ▸ List.mem_cons_self .. : c ∈ spelledInText content)
      exact (textEscape_delimited d c spelled).1
    rw [shape, List.cons_append] at scanned ⊢
    rw [run_contentFrom, run_token_of_ne other, scanned]
    cases content.all isXmlChar <;> rfl

theorem mem_lineBreak {depth : Nat} {c : Char} (member : c ∈ lineBreak depth) :
    c = '\n' ∨ c = ' ' := by
  rcases List.mem_cons.mp member with rfl | blank
  · exact .inl rfl
  · exact .inr (List.mem_replicate.mp blank).2

/-- A line break is spelled as it is. -/
theorem spelledInText_lineBreak (depth : Nat) :
    spelledInText (lineBreak depth) = lineBreak depth := by
  apply spelledInText_eq_self
  intro c member
  rcases mem_lineBreak member with rfl | rfl <;> rfl

theorem run_contentFrom_lineBreak (level depth : Nat) (after : List Char) :
    (contentFrom (some depth)).run (lineBreak level ++ '<' :: after) =
      leadingTokens true [.text (lineBreak level)]
        ((contentFrom (some depth)).run ('<' :: after)) := by
  have possible : (lineBreak level).all isXmlChar = true := by
    apply List.all_eq_true.mpr
    intro c member
    rcases mem_lineBreak member with rfl | rfl <;> decide
  have broken := run_contentFrom_text (lineBreak level) depth after
  rwa [spelledInText_lineBreak, possible] at broken

namespace Element

/-- What is written between the tags of an element, its end tag, and what follows. -/
def innerChars (level : Nat) (name : String) (text : Option String) (children : List Element)
    (after : List Char) : List Char :=
  spelledInText (text.getD "").toList ++ (siblingChars (level + 1) text.isNone children ++
    ((if children.isEmpty then [] else lineBreak level) ++
      '<' :: '/' :: (name.toList ++ '>' :: after)))

/-- The tokens of what is written between the tags of an element, and of its end tag. -/
def innerTokens (level : Nat) (name : String) (text : Option String) (children : List Element) :
    List Token :=
  textTokens (spelledInText (text.getD "").toList) ++
    (siblingTokens (level + 1) text.isNone children ++
      ((if children.isEmpty then [] else [.text (lineBreak level)]) ++ [.finish (.plain name)]))

theorem chars_append (level : Nat) (name : String) (attributes : Attributes) (text : Option String)
    (children : List Element) (after : List Char) :
    chars level ⟨name, attributes, text, children⟩ ++ after =
      '<' :: (name.toList ++ (attributeChars attributes ++
        (tagEnding (text.isNone && children.isEmpty) ++
          if text.isNone && children.isEmpty then after
          else innerChars level name text children after))) := by
  rw [chars]
  split
  · rename_i bare
    simp [tagEnding, bare]
  · rename_i full
    simp [tagEnding, full, innerChars, spelledInText]

end Element

/-- After a text the next tag follows at once. -/
theorem siblingChars_eq_cons (level : Nat) (children : List Element) (name : String)
    (after : List Char) :
    ∃ others, siblingChars (level + 1) false children ++
      ((if children.isEmpty then [] else lineBreak level) ++
        '<' :: '/' :: (name.toList ++ '>' :: after)) = '<' :: others := by
  cases children with
  | nil => exact ⟨_, rfl⟩
  | cons first children =>
    obtain ⟨others, shape⟩ := first.chars_eq_cons (level + 1)
    exact ⟨_, by rw [siblingChars, shape]; rfl⟩

/-- What is between the tags of an element is read if its children are. -/
theorem run_contentFrom_innerChars {name : String} (plain : isPlainName name)
    (text : Option String) {children : List Element} {known : Bool}
    (siblings : ∀ depth level fresh after,
      (contentFrom (some depth)).run (siblingChars level fresh children ++ after) =
        leadingTokens known (Element.siblingTokens level fresh children)
          ((contentFrom (some depth)).run after))
    (depth level : Nat) (after : List Char) :
    (contentFrom (some depth)).run (Element.innerChars level name text children after) =
      leadingTokens ((text.getD "").toList.all isXmlChar && known)
        (Element.innerTokens level name text children)
        ((contentFrom (if depth = 0 then none else some (depth - 1))).run after) := by
  have closing := run_contentFrom_endTag plain depth after
  have broken : (contentFrom (some depth)).run
      ((if children.isEmpty then [] else lineBreak level) ++
        '<' :: '/' :: (name.toList ++ '>' :: after)) =
      leadingTokens true ((if children.isEmpty then [] else [.text (lineBreak level)]) ++
        [.finish (.plain name)])
        ((contentFrom (if depth = 0 then none else some (depth - 1))).run after) := by
    cases children with
    | nil => exact closing
    | cons first children =>
      have line := run_contentFrom_lineBreak level depth ('/' :: (name.toList ++ '>' :: after))
      rw [closing, leadingTokens_leadingTokens] at line
      exact line
  rw [Element.innerChars, Element.innerTokens]
  cases text with
  | none =>
    have children := siblings depth (level + 1) true
      ((if children.isEmpty then [] else lineBreak level) ++
        '<' :: '/' :: (name.toList ++ '>' :: after))
    rw [broken, leadingTokens_leadingTokens] at children
    simpa [spelledInText, textTokens] using children
  | some text =>
    obtain ⟨others, shape⟩ := siblingChars_eq_cons level children name after
    have content := run_contentFrom_text text.toList depth others
    rw [← shape, siblings, broken, leadingTokens_leadingTokens, leadingTokens_leadingTokens]
      at content
    simpa using content

mutual

/-- The scanner reads the tokens of an element off its written form, or nothing at all if it has
characters that documents may not hold. -/
theorem run_contentFrom_chars : (element : Element) → element.every Element.hasNames →
    ∀ depth level after,
    (contentFrom (some depth)).run (element.chars level ++ after) =
      leadingTokens (element.every Element.hasXmlChars) (element.tokens level)
        ((contentFrom (some depth)).run after)
  | ⟨name, attributes, text, children⟩, named, depth, level, after => by
    obtain ⟨own, inner⟩ := Bool.and_eq_true_iff.mp named
    obtain ⟨plain, plainNames⟩ := Bool.and_eq_true_iff.mp own
    have siblings := run_contentFrom_siblingChars children inner
    rw [Element.chars_append, run_contentFrom_startTag plain plainNames, Element.tokens]
    cases bare : text.isNone && children.isEmpty with
    | true =>
      obtain ⟨textless, childless⟩ := Bool.and_eq_true_iff.mp bare
      obtain rfl := Option.isNone_iff_eq_none.mp textless
      obtain rfl := List.isEmpty_iff.mp childless
      simp [Element.every, Element.everyOf, Element.hasXmlChars]
    | false =>
      have content := run_contentFrom_innerChars plain text siblings (depth + 1) level after
      simp only [Bool.false_eq_true, if_false, content, leadingTokens_leadingTokens]
      simp [Element.every, Element.hasXmlChars, Element.innerTokens, Bool.and_assoc]

theorem run_contentFrom_siblingChars : (elements : List Element) →
    Element.everyOf Element.hasNames elements →
    ∀ depth level fresh after,
    (contentFrom (some depth)).run (siblingChars level fresh elements ++ after) =
      leadingTokens (Element.everyOf Element.hasXmlChars elements)
        (Element.siblingTokens level fresh elements) ((contentFrom (some depth)).run after)
  | [], _, depth, level, fresh, after => (leadingTokens_nil _).symm
  | first :: others, named, depth, level, fresh, after => by
    obtain ⟨head, tail⟩ := Bool.and_eq_true_iff.mp named
    have element := run_contentFrom_chars first head depth level
      (siblingChars level true others ++ after)
    rw [run_contentFrom_siblingChars others tail, leadingTokens_leadingTokens] at element
    cases fresh with
    | false => simpa [siblingChars, Element.siblingTokens, Element.everyOf] using element
    | true =>
      obtain ⟨rest, shape⟩ := first.chars_eq_cons level
      have broken := run_contentFrom_lineBreak level depth
        (rest ++ (siblingChars level true others ++ after))
      rw [← List.cons_append, ← shape, element, leadingTokens_leadingTokens] at broken
      simpa [siblingChars, Element.siblingTokens, Element.everyOf] using broken

end

end CartoStyle.Xml
