import CartoStyle.CommandLine
import CartoStyle.Proofs.Outcome

/-!
# How conversions and commands go

What comes of a text is said for each direction (`Converts`). A conversion of a file goes by steps
and ends with the first one that fails: `ConvertRun` has a case for each end, and the function that
converts has exactly these runs (`convertFile_eq_iff`). It is the same with the options of a command
(`Command.options_eq_iff`). A command fails where one of the two does (`Command.run_cases`);
otherwise it prints the text, unless that went into a file.
-/

namespace CartoStyle

/-! ## The steps of a conversion -/

/-- What comes of a text: of a style in JSON its stylesheet with some options, and of a stylesheet
its style in JSON. -/
inductive Converts (options : Stylesheet.Options) :
    Direction → String → Except ConversionProblem String → Prop
  | written {source : String} {result : Except ConversionProblem String}
      (done : writeStylesheet options source = result) : Converts options .write source result
  | read {source : String} {result : Except ConversionProblem String}
      (done : readStylesheet source = result) : Converts options .read source result

theorem convert_eq_iff {direction : Direction} {options : Stylesheet.Options} {source : String}
    {result : Except ConversionProblem String} :
    convert direction options source = result ↔ Converts options direction source result := by
  constructor
  · intro done
    cases direction with
    | write => exact .written done
    | read => exact .read done
  · rintro (done | done) <;> exact done

section Steps

variable {σ : Type}

/-- How a conversion of a file can go: its output, what it gives and the state that it leaves. -/
inductive ConvertRun (files : FileAccess (StateM σ)) (direction : Direction) (input : String)
    (options : Stylesheet.Options) (start : σ) :
    Option String → Except ConversionProblem String → σ → Prop
  | unread {output : Option String} {cause : FileProblem} {after : σ}
      (failed : files.read input start = (.error cause, after)) :
      ConvertRun files direction input options start output (.error (.file input cause)) after
  | unconverted {output : Option String} {source : String} {problem : ConversionProblem}
      {after : σ} (read : files.read input start = (.ok source, after))
      (failed : Converts options direction source (.error problem)) :
      ConvertRun files direction input options start output (.error problem) after
  | returned {source text : String} {after : σ}
      (read : files.read input start = (.ok source, after))
      (converted : Converts options direction source (.ok text)) :
      ConvertRun files direction input options start none (.ok text) after
  | unwritten {source text path : String} {cause : FileProblem} {middle after : σ}
      (read : files.read input start = (.ok source, middle))
      (converted : Converts options direction source (.ok text))
      (failed : files.write path text middle = (.error cause, after)) :
      ConvertRun files direction input options start (some path) (.error (.file path cause)) after
  | written {source text path : String} {middle after : σ}
      (read : files.read input start = (.ok source, middle))
      (converted : Converts options direction source (.ok text))
      (put : files.write path text middle = (.ok (), after)) :
      ConvertRun files direction input options start (some path) (.ok text) after

variable {files : FileAccess (StateM σ)} {direction : Direction} {input : String}
  {output : Option String} {options : Stylesheet.Options} {start after : σ}
  {result : Except ConversionProblem String}

/-- A step goes on from the state that the one before it leaves. -/
theorem bind_apply {α β : Type} {step : StateM σ α} {next : α → StateM σ β} {start after : σ}
    {value : α} (done : step start = (value, after)) :
    (step >>= next) start = next value after := by
  change (StateT.bind step next) start = _
  rw [StateT.bind, done]
  rfl

/-- What a run gives is what the conversion gives. -/
theorem ConvertRun.convertFile_eq
    (run : ConvertRun files direction input options start output result after) :
    convertFile files direction input output options start = (result, after) := by
  cases run with
  | unread failed =>
    rw [convertFile, bind_apply failed]
    rfl
  | unconverted read failed =>
    rw [convertFile, bind_apply read]
    simp only [convert_eq_iff.mpr failed]
    rfl
  | returned read converted =>
    rw [convertFile, bind_apply read]
    simp only [convert_eq_iff.mpr converted]
    rfl
  | unwritten read converted failed =>
    rw [convertFile, bind_apply read]
    simp only [convert_eq_iff.mpr converted, bind_apply failed]
    rfl
  | written read converted put =>
    rw [convertFile, bind_apply read]
    simp only [convert_eq_iff.mpr converted, bind_apply put]
    rfl

/-- Every conversion has a run. -/
theorem exists_convertRun (files : FileAccess (StateM σ)) (direction : Direction)
    (input : String) (output : Option String) (options : Stylesheet.Options) (start : σ) :
    ∃ result after, ConvertRun files direction input options start output result after := by
  obtain ⟨result, middle, read⟩ : ∃ result middle, files.read input start = (result, middle) :=
    ⟨_, _, rfl⟩
  cases result with
  | error cause => exact ⟨_, _, .unread read⟩
  | ok source =>
    obtain ⟨result, converted⟩ : ∃ result, Converts options direction source result :=
      ⟨_, convert_eq_iff.mp rfl⟩
    cases result with
    | error problem => exact ⟨_, _, .unconverted read converted⟩
    | ok text =>
      cases output with
      | none => exact ⟨_, _, .returned read converted⟩
      | some path =>
        obtain ⟨result, after, put⟩ : ∃ result after,
            files.write path text middle = (result, after) := ⟨_, _, rfl⟩
        cases result with
        | error cause => exact ⟨_, _, .unwritten read converted put⟩
        | ok _ => exact ⟨_, _, .written read converted put⟩

theorem convertFile_eq_iff : convertFile files direction input output options start =
    (result, after) ↔ ConvertRun files direction input options start output result after := by
  refine ⟨fun same => ?_, ConvertRun.convertFile_eq⟩
  obtain ⟨_, _, run⟩ := exists_convertRun files direction input output options start
  obtain ⟨rfl, rfl⟩ := Prod.mk.inj (run.convertFile_eq.symm.trans same)
  exact run

/-- What is asked of the files for a conversion is all that it takes. -/
theorem exists_convertFile_ok_iff :
    (∃ text after, convertFile files direction input output options start = (.ok text, after)) ↔
      ∃ source text middle, files.read input start = (.ok source, middle) ∧
        Converts options direction source (.ok text) ∧
        ∀ path ∈ output, ∃ after, files.write path text middle = (.ok (), after) := by
  constructor
  · rintro ⟨text, after, done⟩
    cases convertFile_eq_iff.mp done with
    | returned read converted => exact ⟨_, _, _, read, converted, fun _ named => by cases named⟩
    | written read converted put =>
      exact ⟨_, _, _, read, converted, fun _ named => by cases named; exact ⟨_, put⟩⟩
  · rintro ⟨source, text, middle, read, converted, put⟩
    cases output with
    | none => exact ⟨_, _, convertFile_eq_iff.mpr (.returned read converted)⟩
    | some path =>
      obtain ⟨after, put⟩ := put path rfl
      exact ⟨_, _, convertFile_eq_iff.mpr (.written read converted put)⟩

end Steps

/-! ## Commands -/

namespace Command

section Options

variable {σ : Type} {files : FileAccess (StateM σ)} {command : Command} {start after : σ}
  {result : Except ConversionProblem Stylesheet.Options}

/-- How a command can come by its options, or fail to. They are the usual ones, or those in the file
that it names; in both the command line can take away the map and set the directory of glyphs. -/
inductive OptionsRun (files : FileAccess (StateM σ)) (command : Command) (start : σ) :
    Except ConversionProblem Stylesheet.Options → σ → Prop
  | usual (absent : command.config = none) :
      OptionsRun files command start
        (.ok { includeMapContainer := !command.noMap, glyphBasePath := command.glyphBasePath })
        start
  | unread {path : String} {cause : FileProblem} {after : σ} (named : command.config = some path)
      (failed : files.read path start = (.error cause, after)) :
      OptionsRun files command start (.error (.file path cause)) after
  | unparsed {path source : String} {cause : Json.Problem} {after : σ}
      (named : command.config = some path) (read : files.read path start = (.ok source, after))
      (failed : Stylesheet.Options.ofJsonText source = .error cause) :
      OptionsRun files command start (.error (.options path cause)) after
  | parsed {path source : String} {options : Stylesheet.Options} {after : σ}
      (named : command.config = some path) (read : files.read path start = (.ok source, after))
      (found : Stylesheet.Options.ofJsonText source = .ok options) :
      OptionsRun files command start
        (.ok { options with
          includeMapContainer := options.includeMapContainer && !command.noMap
          glyphBasePath := command.glyphBasePath.or options.glyphBasePath })
        after

theorem options_of_loadOptions {path : String} (named : command.config = some path)
    (loaded : loadOptions files path start = (result, after)) :
    command.options files start = (result.map command.adjust, after) := by
  simp only [options, named, bind_apply loaded]
  rfl

theorem OptionsRun.options_eq (run : OptionsRun files command start result after) :
    command.options files start = (result, after) := by
  cases run with
  | usual absent =>
    have usual : command.adjust {} =
        { includeMapContainer := !command.noMap, glyphBasePath := command.glyphBasePath } := by
      simp [adjust]
    simp only [options, absent, usual]
    rfl
  | @unread path cause _ named failed =>
    have loaded : loadOptions files path start = (.error (.file path cause), after) := by
      rw [loadOptions, bind_apply failed]
      rfl
    exact options_of_loadOptions named loaded
  | @unparsed path source cause _ named read failed =>
    have loaded : loadOptions files path start = (.error (.options path cause), after) := by
      rw [loadOptions, bind_apply read]
      simp only [failed]
      rfl
    exact options_of_loadOptions named loaded
  | @parsed path source found _ named read parsed =>
    have loaded : loadOptions files path start = (.ok found, after) := by
      rw [loadOptions, bind_apply read]
      simp only [parsed]
      rfl
    exact options_of_loadOptions named loaded

theorem exists_optionsRun (files : FileAccess (StateM σ)) (command : Command) (start : σ) :
    ∃ result after, OptionsRun files command start result after := by
  cases named : command.config with
  | none => exact ⟨_, _, .usual named⟩
  | some path =>
    obtain ⟨content, after, read⟩ : ∃ content after, files.read path start = (content, after) :=
      ⟨_, _, rfl⟩
    cases content with
    | error cause => exact ⟨_, _, .unread named read⟩
    | ok source =>
      cases parsed : Stylesheet.Options.ofJsonText source with
      | error cause => exact ⟨_, _, .unparsed named read parsed⟩
      | ok options => exact ⟨_, _, .parsed named read parsed⟩

theorem options_eq_iff : command.options files start = (result, after) ↔
    OptionsRun files command start result after := by
  refine ⟨fun same => ?_, OptionsRun.options_eq⟩
  obtain ⟨_, _, run⟩ := exists_optionsRun files command start
  obtain ⟨rfl, rfl⟩ := Prod.mk.inj (run.options_eq.symm.trans same)
  exact run

end Options

/-- What is printed of a text: nothing where it went into a file, and otherwise the text, with a
line end put behind it if it has none. -/
inductive IsPrinted : Option String → String → String → Prop
  | filed (path text : String) : IsPrinted (some path) text ""
  | ended (front : String) : IsPrinted none (front ++ "\n") (front ++ "\n")
  | unended {text : String} (other : ∀ front, text ≠ front ++ "\n") :
      IsPrinted none text (text ++ "\n")

theorem endsWith_lineEnd_iff {text : String} :
    text.endsWith "\n" ↔ ∃ front, text = front ++ "\n" := by
  rw [String.endsWith_eq_endsWith_toSlice, String.Slice.endsWith_string_iff]
  constructor
  · rintro ⟨front, same⟩
    refine ⟨String.ofList front, String.toList_inj.mp ?_⟩
    simpa using same.symm
  · rintro ⟨front, rfl⟩
    exact ⟨front.toList, by simp⟩

theorem isPrinted_none_iff {text printed : String} :
    IsPrinted none text printed ↔ printed = withLineEnd text := by
  constructor
  · rintro (_ | front | other)
    · rw [withLineEnd, if_pos (endsWith_lineEnd_iff.mpr ⟨front, rfl⟩)]
    · rw [withLineEnd, if_neg fun ended => (endsWith_lineEnd_iff.mp ended).elim other]
  · rintro rfl
    rw [withLineEnd]
    split
    · rename_i ended
      obtain ⟨front, rfl⟩ := endsWith_lineEnd_iff.mp ended
      exact .ended front
    · rename_i unended
      exact .unended fun front same => unended (endsWith_lineEnd_iff.mpr ⟨front, same⟩)

theorem isPrinted_outcome (command : Command) (text : String) :
    IsPrinted command.output text (command.outcome (.ok text)).standardOutput := by
  simp only [outcome]
  cases command.output with
  | none => exact isPrinted_none_iff.mpr rfl
  | some path => exact .filed path text

variable {σ : Type} {files : FileAccess (StateM σ)} {command : Command} {outcome : Outcome}
  {start after : σ}

/-- A command stops where its options cannot be had. -/
theorem run_of_options_error {problem : ConversionProblem}
    (failed : command.OptionsRun files start (.error problem) after) :
    command.run files start = (command.outcome (.error problem), after) := by
  rw [run, bind_apply failed.options_eq]
  rfl

/-- With its options a command converts. -/
theorem run_of_convertFile {options : Stylesheet.Options} {middle : σ}
    {result : Except ConversionProblem String}
    (loaded : command.OptionsRun files start (.ok options) middle)
    (ended : convertFile files command.direction command.input command.output options middle =
      (result, after)) : command.run files start = (command.outcome result, after) := by
  rw [run, bind_apply loaded.options_eq]
  simp only [bind_apply ended]
  rfl

/-- There is no other way for a command to end. -/
theorem run_cases (done : command.run files start = (outcome, after)) :
    (∃ problem, command.OptionsRun files start (.error problem) after ∧
      outcome = command.outcome (.error problem)) ∨
    ∃ options middle result, command.OptionsRun files start (.ok options) middle ∧
      convertFile files command.direction command.input command.output options middle =
        (result, after) ∧ outcome = command.outcome result := by
  obtain ⟨set, middle, loaded⟩ := exists_optionsRun files command start
  cases set with
  | error problem =>
    rw [run_of_options_error loaded] at done
    cases done
    exact .inl ⟨problem, loaded, rfl⟩
  | ok options =>
    obtain ⟨result, last, ended⟩ : ∃ result last,
        convertFile files command.direction command.input command.output options middle =
          (result, last) := ⟨_, _, rfl⟩
    rw [run_of_convertFile loaded ended] at done
    cases done
    exact .inr ⟨options, middle, result, loaded, ended, rfl⟩

end Command

end CartoStyle
