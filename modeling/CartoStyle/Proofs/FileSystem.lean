import CartoStyle.Proofs.Command
import CartoStyle.Proofs.Conversion

/-!
# Files around a conversion

A file system is a map from files to contents, and not much is asked of it (`FileSystem`): reading
changes nothing, what is read is the text of a content, and a write puts a text in the place of one
content or fails and changes nothing. `FileStore` is such a system (`FileSystem.ofStore`), and so
is a plain map from paths to contents (`FileSystem.ofMap`).

A conversion writes in its last step only, so one that fails leaves every file as it was, also the
one that was to be replaced (`FileSystem.converted_or_unchanged`).
-/

namespace CartoStyle

/-- Files with contents. Different paths may name the same file. -/
structure FileSystem where
  State : Type
  File : Type
  /-- The file that a path names. -/
  file : String → File
  content : State → File → Option ByteArray
  access : FileAccess (StateM State)
  content_of_read {path : String} {before after : State} {result : Except FileProblem String}
    (read : access.read path before = (result, after)) : content after = content before
  text_of_read {path text : String} {before after : State}
    (read : access.read path before = (.ok text, after)) :
    content before (file path) = some text.toUTF8
  content_of_refused {path text : String} {before after : State} {cause : FileProblem}
    (write : access.write path text before = (.error cause, after)) : content after = content before
  text_of_written {path text : String} {before after : State}
    (write : access.write path text before = (.ok (), after)) :
    content after (file path) = some text.toUTF8
  content_of_ne {path text : String} {before after : State} {other : File}
    (write : access.write path text before = (.ok (), after)) (different : other ≠ file path) :
    content after other = content before other

/-! ## Two file systems -/

theorem eq_toUTF8_of_decodeText {content : ByteArray} {text : String}
    (decoded : decodeText content = .ok text) : content = text.toUTF8 := by
  rw [decodeText, String.fromUTF8?] at decoded
  split at decoded
  · rename_i found
    split at found
    · cases found
      cases decoded
      rfl
    · cases found
  · cases decoded

theorem decodeText_toUTF8 (text : String) : decodeText text.toUTF8 = .ok text := by
  have found : String.fromUTF8? text.toUTF8 = some text := dif_pos text.isValidUTF8
  rw [decodeText, found]

theorem FileStore.get?_of_read {store : FileStore} {path text : String}
    (read : store.read path = .ok text) : store.get? path = some text.toUTF8 := by
  simp only [FileStore.read] at read
  iterate 3 (split at read; cases read)
  split at read
  · cases read
  · rename_i content found
    split at read
    · cases read
    · rw [FileStore.get?, found, eq_toUTF8_of_decodeText read]

theorem FileStore.eq_of_write_error {store after : FileStore} {path text : String}
    {cause : FileProblem} (write : store.write path text = (.error cause, after)) :
    after = store := by
  cases refused : store.writeProblem? path with
  | some problem =>
    rw [write_of_problem refused] at write
    cases write
    rfl
  | none =>
    rw [FileStore.write, refused] at write
    cases write

theorem FileStore.writeProblem?_of_write_ok {store after : FileStore} {path text : String}
    (write : store.write path text = (.ok (), after)) : store.writeProblem? path = none := by
  cases refused : store.writeProblem? path with
  | some problem =>
    rw [write_of_problem refused] at write
    cases write
  | none => rfl

namespace FileSystem

/-- The store as a file system, where a path names a file by its parts. -/
def ofStore : FileSystem where
  State := FileStore
  File := List String
  file := pathParts
  content store file := store.files.get? file
  access := FileStore.access
  content_of_read read := by
    cases read
    rfl
  text_of_read read := FileStore.get?_of_read (Prod.mk.inj read).1
  content_of_refused write := by rw [FileStore.eq_of_write_error write]
  text_of_written {path text before after} write := by
    have put := FileStore.get?_write_self (FileStore.writeProblem?_of_write_ok write) text
    change before.write path text = _ at write
    rwa [write] at put
  content_of_ne {path text before after other} write different := by
    have kept := before.get?_files_write_of_ne different text
    change before.write path text = _ at write
    rwa [write] at kept

/-- Paths with contents, where nothing can be put at some of the paths. -/
def ofMap (locked : String → Bool) : FileSystem where
  State := String → Option ByteArray
  File := String
  file := id
  content := id
  access := {
    read path contents := (match contents path with
      | none => .error .notFound
      | some content => decodeText content, contents)
    write path text contents :=
      if locked path then (.error (.other "Permission denied (os error 13)"), contents)
      else (.ok (), fun other => if other = path then some text.toUTF8 else contents other) }
  content_of_read read := by
    cases read
    rfl
  text_of_read {path text before after} read := by
    obtain ⟨read, -⟩ := Prod.mk.inj read
    split at read
    · cases read
    · rename_i content found
      exact found.trans (congrArg some (eq_toUTF8_of_decodeText read))
  content_of_refused write := by
    simp only at write
    split at write <;> cases write
    rfl
  text_of_written write := by
    simp only at write
    split at write <;> cases write
    exact if_pos rfl
  content_of_ne write different := by
    simp only at write
    split at write <;> cases write
    exact if_neg different

end FileSystem

/-! ## What becomes of the files -/

namespace FileSystem

variable (system : FileSystem)

/-- A conversion gave a text, and nothing else came of it between two states. -/
structure Converted (direction : Direction) (input : String) (output : Option String)
    (options : Stylesheet.Options) (before after : system.State) (text : String) : Prop where
  /-- The text is what the content of the input is converted to. -/
  converts : ∃ source, system.content before (system.file input) = some source.toUTF8 ∧
    Converts options direction source (.ok text)
  /-- The output holds the text. -/
  holds : ∀ path ∈ output, system.content after (system.file path) = some text.toUTF8
  /-- Every other file holds what it held. -/
  keeps : ∀ file, (∀ path ∈ output, file ≠ system.file path) →
    system.content after file = system.content before file

variable {system} {direction : Direction} {input : String} {output : Option String}
  {options : Stylesheet.Options} {before after : system.State}

/-- A conversion that fails leaves every file as it was. -/
theorem content_of_convertFile_error {problem : ConversionProblem}
    (failed : convertFile system.access direction input output options before =
      (.error problem, after)) : system.content after = system.content before := by
  -- Of the runs that fail only the last has come to a write, and that one was refused.
  cases convertFile_eq_iff.mp failed with
  | unread failed => exact system.content_of_read failed
  | unconverted read failed => exact system.content_of_read read
  | unwritten read converted failed =>
    rw [system.content_of_refused failed, system.content_of_read read]

theorem converted_of_convertFile {text : String}
    (done : convertFile system.access direction input output options before = (.ok text, after)) :
    system.Converted direction input output options before after text := by
  cases convertFile_eq_iff.mp done with
  | returned read converted =>
    refine ⟨⟨_, system.text_of_read read, converted⟩, fun path named => (by cases named),
      fun file _ => ?_⟩
    rw [system.content_of_read read]
  | @written source text path middle after read converted put =>
    refine ⟨⟨_, system.text_of_read read, converted⟩, fun other named => ?_,
      fun file different => ?_⟩
    · cases named
      exact system.text_of_written put
    · rw [system.content_of_ne put (different path rfl), system.content_of_read read]

/-! ## What becomes of the files around a command -/

/-- Options are read and nothing is written for them. -/
theorem content_of_optionsRun {command : Command}
    {result : Except ConversionProblem Stylesheet.Options}
    (run : command.OptionsRun system.access before result after) :
    system.content after = system.content before := by
  cases run with
  | usual absent => rfl
  | unread named failed => exact system.content_of_read failed
  | unparsed named read failed => exact system.content_of_read read
  | parsed named read found => exact system.content_of_read read

/-- What was converted was there already in a state with the same contents. -/
theorem Converted.of_content {direction : Direction} {input : String} {output : Option String}
    {options : Stylesheet.Options} {text : String} {middle : system.State}
    (converted : system.Converted direction input output options middle after text)
    (same : system.content middle = system.content before) :
    system.Converted direction input output options before after text where
  converts := same ▸ converted.converts
  holds := converted.holds
  keeps := same ▸ converted.keeps

/-- A command fails where its options or its conversion fail, leaves every file as it was then, and
prints nothing. -/
theorem content_of_run {command : Command} {outcome : Command.Outcome}
    (done : command.run system.access before = (outcome, after)) :
    (outcome.exitCode = 1 ∧ outcome.standardOutput = "" ∧
      system.content after = system.content before ∧
      ((∃ problem, command.OptionsRun system.access before (.error problem) after) ∨
        ∃ options middle problem, command.OptionsRun system.access before (.ok options) middle ∧
          convertFile system.access command.direction command.input command.output options middle =
            (.error problem, after))) ∨
    outcome.exitCode = 0 ∧ ∃ options middle text,
      command.OptionsRun system.access before (.ok options) middle ∧
      convertFile system.access command.direction command.input command.output options middle =
        (.ok text, after) ∧
      system.Converted command.direction command.input command.output options before after text ∧
      Command.IsPrinted command.output text outcome.standardOutput := by
  obtain ⟨problem, failed, rfl⟩ | ⟨options, middle, result, loaded, ended, rfl⟩ :=
    Command.run_cases done
  · exact .inl ⟨rfl, rfl, content_of_optionsRun failed, .inl ⟨problem, failed⟩⟩
  · have same := content_of_optionsRun loaded
    cases result with
    | error problem =>
      exact .inl ⟨rfl, rfl, (content_of_convertFile_error ended).trans same,
        .inr ⟨options, middle, problem, loaded, ended⟩⟩
    | ok text =>
      exact .inr ⟨rfl, options, middle, text, loaded, ended,
        (converted_of_convertFile ended).of_content same, Command.isPrinted_outcome command text⟩

/-- A conversion that fails leaves every file as it was. One that succeeds gives what the content of
the input is converted to, puts it into the output, if there is one, and keeps every other file. It
succeeds exactly where the input is read, its text can be converted and the output is written. A
command fails exactly where its options or its conversion do, and then it prints nothing. Otherwise
it prints the text that a conversion without an output gave, with one line end, and nothing else. -/
theorem converted_or_unchanged (system : FileSystem) (before : system.State) :
    (∀ direction input output options after,
      (∀ problem, convertFile system.access direction input output options before =
        (.error problem, after) → system.content after = system.content before) ∧
      ∀ text, convertFile system.access direction input output options before =
        (.ok text, after) →
          system.Converted direction input output options before after text) ∧
    (∀ direction input output options,
      (∃ text after, convertFile system.access direction input output options before =
        (.ok text, after)) ↔
      ∃ source text middle, system.access.read input before = (.ok source, middle) ∧
        Converts options direction source (.ok text) ∧
        ∀ path ∈ output, ∃ after, system.access.write path text middle = (.ok (), after)) ∧
    ∀ (command : Command) outcome after, command.run system.access before = (outcome, after) →
      (outcome.exitCode = 1 ∧ outcome.standardOutput = "" ∧
        system.content after = system.content before ∧
        ((∃ problem, command.OptionsRun system.access before (.error problem) after) ∨
          ∃ options middle problem, command.OptionsRun system.access before (.ok options) middle ∧
            convertFile system.access command.direction command.input command.output options
              middle = (.error problem, after))) ∨
      outcome.exitCode = 0 ∧ ∃ options middle text,
        command.OptionsRun system.access before (.ok options) middle ∧
        convertFile system.access command.direction command.input command.output options middle =
          (.ok text, after) ∧
        system.Converted command.direction command.input command.output options before after text ∧
        Command.IsPrinted command.output text outcome.standardOutput :=
  ⟨fun _ _ _ _ _ => ⟨fun _ => content_of_convertFile_error, fun _ => converted_of_convertFile⟩,
    fun _ _ _ _ => exists_convertFile_ok_iff, fun _ _ _ => content_of_run⟩

/-- A system in which one path is locked. -/
def locking : FileSystem := ofMap (· = "locked")

/-- One text, and no other content. -/
def single (path text : String) : locking.State :=
  fun (other : String) => if other = path then some text.toUTF8 else none

theorem read_single (path text : String) :
    locking.access.read path (single path text) = (.ok text, single path text) := by
  have found : single path text path = some text.toUTF8 := if_pos rfl
  simp only [locking, ofMap, found, decodeText_toUTF8]

/-- The stylesheet of a cover. -/
def coverStylesheet : String :=
  "<?xml version=\"1.0\" encoding=\"utf-8\"?>
<Map>
  <Style>
    <Rule>
      <RasterSymbolizer opacity=\"1\"/>
    </Rule>
  </Style>
</Map>
"

/-- The same cover in JSON. -/
def coverJson : String :=
  "\x7b
  \"name\": \"\",
  \"rules\": [
    \x7b
      \"symbolizers\": [
        \x7b
          \"kind\": \"Raster\",
          \"opacity\": 1.0
        \x7d
      ]
    \x7d
  ]
\x7d"

theorem jsonText_cover : (cover .one).jsonText = coverJson := by decide +kernel

theorem toXml_cover : ((cover .one).toXml {}).result = .ok coverStylesheet :=
  Expression.eq_ok_of_toOption (by decide +kernel)

theorem readStylesheet_cover : readStylesheet coverStylesheet = .ok coverJson := by
  obtain ⟨text, written, read⟩ := exists_toXml_cover .one
  obtain rfl := Except.ok.inj (toXml_cover.symm.trans written)
  rw [readStylesheet_of_ofXml read, jsonText_cover]

theorem writeStylesheet_cover : writeStylesheet {} coverJson = .ok coverStylesheet := by
  have kept : ∀ number ∈ (cover .one).toJson.numbers, number.isKept :=
    Json.Value.isKept_of_all_isShort (by decide +kernel)
  have parsed : Style.ofJsonText coverJson = .ok (cover .one) :=
    jsonText_cover ▸ Style.ofJsonText_jsonText (by decide) ⟨kept, by decide⟩
  rw [writeStylesheet, parsed]
  exact congrArg (Except.mapError ConversionProblem.stylesheet) toXml_cover

/-- A cover is read into the file that it was in, and written into another one. A locked output is
left alone. Commands print the text with its one line end, or nothing where the options are missing.
-/
theorem converted_or_unchanged_cover :
    (∃ after, convertFile locking.access .read "cover" (some "cover") {}
        (single "cover" coverStylesheet) = (.ok coverJson, after) ∧
      locking.content after "cover" = some coverJson.toUTF8) ∧
    (∃ after, convertFile locking.access .write "cover" (some "map") {}
        (single "cover" coverJson) = (.ok coverStylesheet, after) ∧
      locking.content after "map" = some coverStylesheet.toUTF8 ∧
      locking.content after "cover" = some coverJson.toUTF8) ∧
    (∃ problem after, convertFile locking.access .write "cover" (some "locked") {}
        (single "cover" coverJson) = (.error problem, after) ∧
      locking.content after = locking.content (single "cover" coverJson)) ∧
    (∃ outcome after, Command.run locking.access { direction := .read, input := "cover" }
        (single "cover" coverStylesheet) = (outcome, after) ∧
      outcome.exitCode = 0 ∧ outcome.standardOutput = coverJson ++ "\n") ∧
    (∃ outcome after, Command.run locking.access { direction := .write, input := "cover" }
        (single "cover" coverJson) = (outcome, after) ∧
      outcome.exitCode = 0 ∧ outcome.standardOutput = coverStylesheet) ∧
    ∃ outcome after,
      Command.run locking.access { direction := .write, input := "cover", config := some "rules" }
        (single "cover" coverJson) = (outcome, after) ∧
      outcome.exitCode = 1 ∧ outcome.standardOutput = "" ∧
      locking.content after = locking.content (single "cover" coverJson) := by
  have reads : Converts {} .read coverStylesheet (.ok coverJson) := .read readStylesheet_cover
  have writes : Converts {} .write coverJson (.ok coverStylesheet) := .written writeStylesheet_cover
  -- What a command prints that finds its input and has no output.
  have printed {direction : Direction} {source text : String}
      (converted : Converts {} direction source (.ok text)) :
      ∃ outcome after, Command.run locking.access { direction, input := "cover" }
          (single "cover" source) = (outcome, after) ∧
        outcome.exitCode = 0 ∧ outcome.standardOutput = Command.withLineEnd text := by
    let command : Command := { direction, input := "cover" }
    have loaded : command.OptionsRun locking.access (single "cover" source) (.ok {})
        (single "cover" source) := .usual rfl
    have done := (ConvertRun.returned (read_single "cover" source) converted).convertFile_eq
    have ran := Command.run_of_convertFile loaded done
    refine ⟨_, _, ran, rfl, ?_⟩
    rcases (converted_or_unchanged locking (single "cover" source)).2.2 command _ _ ran with
      ⟨failed, -⟩ | ⟨-, options, middle, _, again, ended, -, shown⟩
    · cases failed
    · cases loaded.options_eq.symm.trans again.options_eq
      cases done.symm.trans ended
      exact Command.isPrinted_none_iff.mp shown
  obtain ⟨conversions, -, commands⟩ := converted_or_unchanged locking (single "cover" coverJson)
  refine ⟨?_, ?_, ?_, ?_, ?_, ?_⟩
  · obtain ⟨after, put⟩ : ∃ after, locking.access.write "cover" coverJson
        (single "cover" coverStylesheet) = (.ok (), after) := ⟨_, rfl⟩
    have done := (ConvertRun.written (read_single "cover" coverStylesheet) reads put).convertFile_eq
    obtain ⟨replaced, -⟩ := converted_or_unchanged locking (single "cover" coverStylesheet)
    exact ⟨after, done, ((replaced ..).2 _ done).holds "cover" rfl⟩
  · obtain ⟨after, put⟩ : ∃ after, locking.access.write "map" coverStylesheet
        (single "cover" coverJson) = (.ok (), after) := ⟨_, rfl⟩
    have done := (ConvertRun.written (read_single "cover" coverJson) writes put).convertFile_eq
    have converted := (conversions ..).2 _ done
    have apart : ∀ path ∈ some "map", "cover" ≠ path := by decide
    exact ⟨after, done, converted.holds "map" rfl, (converted.keeps "cover" apart).trans rfl⟩
  · obtain ⟨cause, after, refused⟩ : ∃ cause after, locking.access.write "locked" coverStylesheet
        (single "cover" coverJson) = (.error cause, after) := ⟨_, _, rfl⟩
    have read := read_single "cover" coverJson
    have done := (ConvertRun.unwritten read writes refused).convertFile_eq
    exact ⟨_, after, done, (conversions ..).1 _ done⟩
  · have unended : Command.withLineEnd coverJson = coverJson ++ "\n" := by decide +kernel
    exact unended ▸ printed reads
  · have ended : Command.withLineEnd coverStylesheet = coverStylesheet := by decide +kernel
    obtain ⟨outcome, after, ran, code, shown⟩ := printed writes
    exact ⟨outcome, after, ran, code, shown.trans ended⟩
  · let command : Command := { direction := .write, input := "cover", config := some "rules" }
    obtain ⟨cause, after, missing⟩ : ∃ cause after, locking.access.read "rules"
        (single "cover" coverJson) = (.error cause, after) := ⟨_, _, rfl⟩
    have failed : command.OptionsRun locking.access _ _ after := .unread rfl missing
    have ran := Command.run_of_options_error failed
    rcases commands command _ _ ran with ⟨code, silent, kept, -⟩ | ⟨code, -⟩
    · exact ⟨_, after, ran, code, silent, kept⟩
    · cases code

end FileSystem

end CartoStyle
