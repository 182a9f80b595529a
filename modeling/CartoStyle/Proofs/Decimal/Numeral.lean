import CartoStyle.Proofs.Decimal.Literal

/-!
# Numerals

A numeral is an optional sign, digits with an optional fraction or a fraction alone, and an optional
exponent (`IsNumeral`). This says which texts are numerals and which fractions they stand for,
without a word on how they are read. The reader of literals takes a numeral from the front of a text
wherever the text behind it does not go on with one (`scanNumber_of_isNumeral`), and takes nothing
else (`exists_isNumeral`). It gives up on a text exactly where digits have an exponent mark behind
them that has no digits of its own (`scanNumber_eq_dangling_iff`).
-/

namespace CartoStyle

open Text (Stops stops_nil stops_cons takeWhile_append_of_stops dropWhile_append_of_stops
  stops_dropWhile)

/-! ## What numerals are made of -/

/-- A sign or none, and whether it is a minus. -/
inductive IsSign : List Char → Bool → Prop
  | absent : IsSign [] false
  | plus : IsSign ['+'] false
  | minus : IsSign ['-'] true

/-- Digits with a point or without: the digits alone, and how many of them are places. -/
inductive IsMantissa : List Char → List Char → Nat → Prop
  | whole {digits : List Char} (nonempty : digits ≠ []) (all : ∀ c ∈ digits, c.isDigit) :
      IsMantissa digits digits 0
  | point {whole fraction : List Char} (nonempty : whole ++ fraction ≠ [])
      (all : ∀ c ∈ whole, c.isDigit) (places : ∀ c ∈ fraction, c.isDigit) :
      IsMantissa (whole ++ '.' :: fraction) (whole ++ fraction) fraction.length

/-- The letters that an exponent begins with. -/
def isExponentMark (c : Char) : Bool := c == 'e' || c == 'E'

/-- An exponent or none, and its value. -/
inductive IsExponent : List Char → Int → Prop
  | absent : IsExponent [] 0
  | digits {mark : Char} {sign digits : List Char} {negative : Bool}
      (marked : isExponentMark mark) (signed : IsSign sign negative) (nonempty : digits ≠ [])
      (all : ∀ c ∈ digits, c.isDigit) :
      IsExponent (mark :: (sign ++ digits))
        (if negative then -(digitsValue digits : Int) else digitsValue digits)

/-- A numeral, whether it has a minus, and the fraction that it stands for. -/
inductive IsNumeral : List Char → Bool → Decimal → Prop
  | parts {sign mantissa digits scale : List Char} {negative : Bool} {places : Nat} {exponent : Int}
      (signed : IsSign sign negative) (counted : IsMantissa mantissa digits places)
      (scaled : IsExponent scale exponent) :
      IsNumeral (sign ++ (mantissa ++ scale)) negative ⟨digitsValue digits, exponent - places⟩

/-- A text that begins like a numeral, up to an exponent mark without digits. -/
inductive HasBareMark : List Char → Prop
  | parts {sign mantissa digits rest : List Char} {negative : Bool} {places : Nat} {mark : Char}
      (signed : IsSign sign negative) (counted : IsMantissa mantissa digits places)
      (marked : isExponentMark mark) (bare : Stops Char.isDigit (takeSign rest).2) :
      HasBareMark (sign ++ (mantissa ++ mark :: rest))

/-! ## Signs -/

/-- Whether a character is a sign. -/
def isSignChar (c : Char) : Bool := c == '+' || c == '-'

theorem takeSign_of_isSign {sign text : List Char} {negative : Bool} (signed : IsSign sign negative)
    (stop : Stops isSignChar text) : takeSign (sign ++ text) = (negative, text) := by
  cases signed with
  | plus | minus => rfl
  | absent =>
    cases text with
    | nil => rfl
    | cons c text =>
      have other := stops_cons.mp stop
      simp only [isSignChar, Bool.or_eq_false_iff, beq_eq_false_iff_ne] at other
      simp only [takeSign, List.nil_append]
      split <;> simp_all

theorem exists_isSign (text : List Char) :
    ∃ sign, IsSign sign (takeSign text).1 ∧ text = sign ++ (takeSign text).2 := by
  unfold takeSign
  split
  · exact ⟨_, .minus, rfl⟩
  · exact ⟨_, .plus, rfl⟩
  · exact ⟨_, .absent, rfl⟩

/-! ## Digits and their point -/

/-- The digits at the front of a text and what follows them, a point among them or not. -/
def takeMantissa (text : List Char) : List Char × Nat × List Char :=
  let (fraction, rest) := takeFraction (text.dropWhile Char.isDigit)
  (text.takeWhile Char.isDigit ++ fraction, fraction.length, rest)

theorem takeMantissa_of_isMantissa {mantissa digits rest : List Char} {places : Nat}
    (counted : IsMantissa mantissa digits places) (stop : Stops continuesMantissa rest) :
    takeMantissa (mantissa ++ rest) = (digits, places, rest) := by
  have behind := stops_isDigit_of_mantissa stop
  cases counted with
  | whole nonempty all =>
    simp only [takeMantissa, takeWhile_append_of_stops all behind,
      dropWhile_append_of_stops all behind, takeFraction_of_stops stop, List.append_nil,
      List.length_nil]
  | @point whole fraction nonempty all allPlaces =>
    have point : Stops Char.isDigit ('.' :: (fraction ++ rest)) := stops_cons.mpr (by decide)
    simp only [takeMantissa, List.append_assoc, List.cons_append,
      takeWhile_append_of_stops all point, dropWhile_append_of_stops all point, takeFraction,
      takeWhile_append_of_stops allPlaces behind, dropWhile_append_of_stops allPlaces behind]

theorem exists_isMantissa {text : List Char} (nonempty : (takeMantissa text).1 ≠ []) :
    ∃ mantissa, IsMantissa mantissa (takeMantissa text).1 (takeMantissa text).2.1 ∧
      text = mantissa ++ (takeMantissa text).2.2 := by
  have inside (text : List Char) : ∀ c ∈ text.takeWhile Char.isDigit, c.isDigit :=
    fun c => List.all_eq_true.mp List.all_takeWhile c
  have parts := List.takeWhile_append_dropWhile (p := Char.isDigit) (l := text)
  by_cases point : ∃ behind, text.dropWhile Char.isDigit = '.' :: behind
  · obtain ⟨behind, point⟩ := point
    simp only [takeMantissa, point, takeFraction] at nonempty ⊢
    refine ⟨_, .point nonempty (inside _) (inside _), ?_⟩
    rw [List.append_assoc, List.cons_append, List.takeWhile_append_dropWhile, ← point, parts]
  · have whole : takeFraction (text.dropWhile Char.isDigit) =
        ([], text.dropWhile Char.isDigit) := by
      unfold takeFraction
      split
      · exact absurd ⟨_, ‹_›⟩ point
      · rfl
    simp only [takeMantissa, whole, List.append_nil] at nonempty ⊢
    exact ⟨_, .whole nonempty (inside _), parts.symm⟩

/-! ## Exponents -/

theorem takeExponent_of_bare {mark : Char} {rest : List Char} (marked : isExponentMark mark)
    (bare : Stops Char.isDigit (takeSign rest).2) :
    takeExponent (mark :: rest) = .error (takeSign rest).2 := by
  have nothing := Text.takeWhile_of_stops bare
  rw [isExponentMark] at marked
  simp [takeExponent, marked, nothing]

theorem takeExponent_of_isExponent {scale rest : List Char} {exponent : Int}
    (scaled : IsExponent scale exponent) (stop : Stops continuesNumber rest) :
    ∃ found, takeExponent (scale ++ rest) = .ok (found, rest) ∧ found.getD 0 = exponent := by
  have behind := stops_isDigit stop
  cases scaled with
  | absent => exact ⟨none, takeExponent_of_stops stop, rfl⟩
  | @digits mark sign digits negative marked signed nonempty all =>
    have unsigned : Stops isSignChar (digits ++ rest) := by
      obtain ⟨c, others, rfl⟩ := List.exists_cons_of_ne_nil nonempty
      have digit := all c (List.mem_cons_self ..)
      apply stops_cons.mpr
      apply Bool.eq_false_iff.mpr
      intro sign
      simp only [isSignChar, Bool.or_eq_true, beq_iff_eq] at sign
      rcases sign with rfl | rfl <;> simp at digit
    have taken := takeSign_of_isSign signed unsigned
    rw [← List.append_assoc] at taken
    rw [isExponentMark] at marked
    refine ⟨_, ?_, Option.getD_some⟩
    simp [takeExponent, marked, taken, takeWhile_append_of_stops all behind,
      dropWhile_append_of_stops all behind, nonempty, -List.append_assoc]

theorem exists_isExponent {text rest : List Char} {found : Option Int}
    (taken : takeExponent text = .ok (found, rest)) :
    ∃ scale, IsExponent scale (found.getD 0) ∧ text = scale ++ rest := by
  unfold takeExponent at taken
  split at taken
  · rename_i mark behind
    split at taken
    · rename_i marked
      simp only at taken
      split at taken
      · cases taken
      · rename_i some
        cases taken
        obtain ⟨sign, signed, shape⟩ := exists_isSign behind
        have all := fun c => List.all_eq_true.mp
          (List.all_takeWhile (p := Char.isDigit) (l := (takeSign behind).2)) c
        refine ⟨_, .digits marked signed (by simpa using some) all, ?_⟩
        rw [List.cons_append, List.append_assoc, List.takeWhile_append_dropWhile, ← shape]
    · cases taken
      exact ⟨[], .absent, rfl⟩
  · cases taken
    exact ⟨[], .absent, rfl⟩

theorem exists_bare {text after : List Char} (failed : takeExponent text = .error after) :
    ∃ mark rest, text = mark :: rest ∧ isExponentMark mark ∧
      Stops Char.isDigit (takeSign rest).2 := by
  unfold takeExponent at failed
  split at failed
  · rename_i mark rest
    split at failed
    · rename_i marked
      simp only at failed
      split at failed
      · rename_i none
        refine ⟨mark, rest, rfl, marked, ?_⟩
        cases unsigned : (takeSign rest).2 with
        | nil => exact stops_nil
        | cons c others =>
          rw [unsigned] at none
          apply stops_cons.mpr
          apply Bool.eq_false_iff.mpr
          intro digit
          simp [digit] at none
      · cases failed
    · cases failed
  · cases failed

/-! ## Numerals at the front of a text -/

section Scanning

variable {text rest : List Char} {negative : Bool} {value : Decimal}

/-- A literal is read by its three parts. -/
theorem scanNumber_eq (text : List Char) : scanNumber text =
    if (takeMantissa (takeSign text).2).1 = [] then .absent
    else match takeExponent (takeMantissa (takeSign text).2).2.2 with
      | .error _ => .dangling
      | .ok (exponent, rest) => .number (takeSign text).1
        ⟨digitsValue (takeMantissa (takeSign text).2).1,
          exponent.getD 0 - (takeMantissa (takeSign text).2).2.1⟩ rest := by
  have blank : (((takeSign text).2.takeWhile Char.isDigit).isEmpty &&
      (takeFraction ((takeSign text).2.dropWhile Char.isDigit)).1.isEmpty) = true ↔
        (takeMantissa (takeSign text).2).1 = [] := by
    rw [Bool.and_eq_true, List.isEmpty_iff, List.isEmpty_iff, takeMantissa,
      List.append_eq_nil_iff]
  exact if_congr blank rfl rfl

/-- The characters that numerals begin with. -/
def opensNumeral (c : Char) : Bool := continuesMantissa c || isSignChar c

/-- No literal is read where none begins. -/
theorem scanNumber_of_stops (stop : Stops opensNumeral text) :
    scanNumber text = .absent := by
  have unsigned : Stops isSignChar text := fun c next => (Bool.or_eq_false_iff.mp (stop c next)).2
  have whole : Stops continuesMantissa text := fun c next =>
    (Bool.or_eq_false_iff.mp (stop c next)).1
  have digits := stops_isDigit_of_mantissa whole
  have sign := takeSign_of_isSign .absent unsigned
  rw [List.nil_append] at sign
  simp only [scanNumber_eq, sign, takeMantissa, Text.takeWhile_of_stops digits,
    Text.dropWhile_of_stops digits, takeFraction_of_stops whole]
  rfl

theorem stops_isSignChar_of_isMantissa {mantissa digits : List Char} {places : Nat}
    (counted : IsMantissa mantissa digits places) (rest : List Char) :
    Stops isSignChar (mantissa ++ rest) := by
  have other {c : Char} (digit : c.isDigit) : isSignChar c = false := by
    apply Bool.eq_false_iff.mpr
    intro sign
    simp only [isSignChar, Bool.or_eq_true, beq_iff_eq] at sign
    rcases sign with rfl | rfl <;> simp at digit
  cases counted with
  | whole nonempty all =>
    obtain ⟨c, others, rfl⟩ := List.exists_cons_of_ne_nil nonempty
    exact stops_cons.mpr (other (all c (List.mem_cons_self ..)))
  | @point whole fraction nonempty all places =>
    cases whole with
    | nil => exact stops_cons.mpr (by decide)
    | cons c others => exact stops_cons.mpr (other (all c (List.mem_cons_self ..)))

theorem IsMantissa.digits_ne_nil {mantissa digits : List Char} {places : Nat}
    (counted : IsMantissa mantissa digits places) : digits ≠ [] := by
  cases counted <;> assumption

theorem stops_continuesMantissa_of_isExponentMark {mark : Char} (marked : isExponentMark mark) :
    Stops continuesMantissa (mark :: rest) := by
  simp only [isExponentMark, Bool.or_eq_true, beq_iff_eq] at marked
  rcases marked with rfl | rfl <;> exact stops_cons.mpr (by decide)

/-- A numeral is read wherever the text behind it does not go on with it. -/
theorem scanNumber_of_isNumeral (numeral : IsNumeral text negative value)
    (stop : Stops continuesNumber rest) :
    scanNumber (text ++ rest) = .number negative value rest := by
  obtain ⟨signed, counted, scaled⟩ := numeral
  rename_i sign mantissa digits scale places exponent
  have behind : Stops continuesMantissa (scale ++ rest) := by
    cases scaled with
    | absent => exact stops_continuesMantissa stop
    | digits marked => exact stops_continuesMantissa_of_isExponentMark marked
  have front := takeSign_of_isSign signed (stops_isSignChar_of_isMantissa counted (scale ++ rest))
  obtain ⟨found, taken, rfl⟩ := takeExponent_of_isExponent scaled stop
  rw [List.append_assoc, List.append_assoc, scanNumber_eq, front]
  simp only [takeMantissa_of_isMantissa counted behind, if_neg counted.digits_ne_nil, taken]

theorem IsNumeral.exists_eq_cons (numeral : IsNumeral text negative value) :
    ∃ c others, text = c :: others ∧ opensNumeral c := by
  have scanned := scanNumber_of_isNumeral numeral stops_nil
  rw [List.append_nil] at scanned
  cases text with
  | nil => cases scanned
  | cons c others =>
    cases opens : opensNumeral c with
    | true => exact ⟨c, others, rfl, opens⟩
    | false =>
      rw [scanNumber_of_stops (stops_cons.mpr opens)] at scanned
      cases scanned

/-- Whatever is read as a literal is a numeral. -/
theorem exists_isNumeral (found : scanNumber text = .number negative value rest) :
    ∃ numeral, IsNumeral numeral negative value ∧ text = numeral ++ rest := by
  rw [scanNumber_eq] at found
  split at found
  · cases found
  · rename_i some
    split at found
    · cases found
    · rename_i exponent after taken
      cases found
      obtain ⟨sign, signed, shape⟩ := exists_isSign text
      obtain ⟨mantissa, counted, shape'⟩ := exists_isMantissa some
      obtain ⟨scale, scaled, shape''⟩ := exists_isExponent taken
      refine ⟨_, .parts signed counted scaled, ?_⟩
      rw [List.append_assoc, List.append_assoc, ← shape'', ← shape', ← shape]

theorem scanNumber_eq_dangling_iff : scanNumber text = .dangling ↔ HasBareMark text := by
  constructor
  · intro dangling
    rw [scanNumber_eq] at dangling
    split at dangling
    · cases dangling
    · rename_i some
      split at dangling
      · rename_i after failed
        obtain ⟨sign, signed, shape⟩ := exists_isSign text
        obtain ⟨mantissa, counted, shape'⟩ := exists_isMantissa some
        obtain ⟨mark, rest, shape'', marked, bare⟩ := exists_bare failed
        rw [shape, shape', shape'']
        exact .parts signed counted marked bare
      · cases dangling
  · rintro ⟨signed, counted, marked, bare⟩
    rename_i sign mantissa digits rest negative places mark
    have front := takeSign_of_isSign signed
      (stops_isSignChar_of_isMantissa counted (mark :: rest))
    have behind : Stops continuesMantissa (mark :: rest) :=
      stops_continuesMantissa_of_isExponentMark marked
    rw [scanNumber_eq, front]
    simp only [takeMantissa_of_isMantissa counted behind, if_neg counted.digits_ne_nil,
      takeExponent_of_bare marked bare]

end Scanning

end CartoStyle
