import ShareWire.Inspect.Run
import ShareWire.Proofs.Inspect.Filter
import ShareWire.Proofs.Inspect.Record
import ShareWire.Proofs.Json.Layout
import ShareWire.Proofs.Text.Utf8

/-!
# Stages of an inspection

A run passes four stages: the kind of the document, the log filter, the bytes of the body, and the record.
Main statement: a run that passes all of them shows the record, and any other run shows nothing but the
failure of the first stage that it does not pass, whatever the later stages would find. A filter that is cut
inside a character is the one thing that stops the program itself.
-/

namespace ShareWire.Inspect

open Text (encode)

variable {environment : String → Option Bytes} {read : Option String → Except ReadFault Bytes}

/-! ## The log filter -/

/-- A variable of an environment holds a text. -/
def Holds (environment : String → Option Bytes) (name text : String) : Prop :=
  environment name = some (encode text)

/-- The log level of an environment, which has a default. -/
inductive LogLevel (environment : String → Option Bytes) : String → Prop
  | held {level : String} : Holds environment "LOG_LEVEL" level → LogLevel environment level
  | default : (∀ level, ¬ Holds environment "LOG_LEVEL" level) → LogLevel environment "info"

/-- The log level counts only if there is no finer filter. It is followed strictly. -/
structure Strict (environment : String → Option Bytes) (level : String) (list : List (List Char)) :
    Prop where
  noFiner : ∀ filter, ¬ Holds environment "RUST_LOG" filter
  isLevel : LogLevel environment level
  lists : Lists level list

/-- A finer filter is followed leniently. -/
def Lenient (environment : String → Option Bytes) (list : List (List Char)) : Prop :=
  ∃ filter, Holds environment "RUST_LOG" filter ∧ Lists filter list

/-- A log filter that a run goes on with, and what is noted of it. -/
inductive Filtered (environment : String → Option Bytes) : String → Prop
  | strict {level : String} {list : List (List Char)} : Strict environment level list →
      (∀ directive ∈ list, Followed directive) → Filtered environment ""
  | lenient {list : List (List Char)} {notes : String} : Lenient environment list → Noted list notes →
      Filtered environment notes

/-- A log level that a run does not go on with. -/
inductive Refused (environment : String → Option Bytes) : String → DirectiveFault → Prop
  | strict {level : String} {list : List (List Char)} {directive : List Char} {fault : DirectiveFault} :
      Strict environment level list → FirstObstacle list directive → Faulty directive fault →
      Refused environment level fault

/-- A log filter that stops the program, and what is noted of it before. -/
inductive Stopped (environment : String → Option Bytes) : String → Prop
  | strict {level : String} {list : List (List Char)} {directive : List Char} :
      Strict environment level list → FirstObstacle list directive → Cut directive →
      Stopped environment ""
  | lenient {list : List (List Char)} {notes : String} : Lenient environment list →
      NotedUntilCut list notes → Stopped environment notes

/-- A variable that is set counts if it is UTF-8. -/
theorem decode_eq_ok_iff_holds {name text : String} :
    (environment name).map Text.decode = some (.ok text) ↔ Holds environment name text := by
  rw [Holds, Option.map_eq_some_iff]
  constructor
  · rintro ⟨bytes, hbytes, htext⟩
    rw [hbytes, Text.decode_eq_ok_iff.1 htext]
  · intro h
    exact ⟨_, h, Text.decode_eq_ok_iff.2 rfl⟩

theorem finerFilter?_eq_some_iff {filter : String} :
    finerFilter? environment = some filter ↔ Holds environment "RUST_LOG" filter := by
  rw [← decode_eq_ok_iff_holds, finerFilter?]
  constructor
  · intro h
    split at h
    · next filter' hfilter => rw [hfilter, Option.some.inj h]
    · contradiction
  · intro h
    rw [h]

theorem logLevel_ofEnvironment (environment : String → Option Bytes) :
    LogLevel environment (Http.Config.ofEnvironment environment).logLevel := by
  rw [Http.Config.ofEnvironment]
  simp only
  split
  · next level hlevel => exact .held (decode_eq_ok_iff_holds.1 hlevel)
  · next hlevel => exact .default fun level h => hlevel level (decode_eq_ok_iff_holds.2 h)

theorem LogLevel.unique {level other : String} (h : LogLevel environment level)
    (h' : LogLevel environment other) : level = other := by
  cases h with
  | held h =>
    cases h' with
    | held h' => exact Text.encode_injective (Option.some.inj (h.symm.trans h'))
    | default h' => exact absurd h (h' level)
  | default h =>
    cases h' with
    | held h' => exact absurd h' (h other)
    | default => rfl

theorem Lenient.readFilter_eq {list : List (List Char)} (h : Lenient environment list) :
    readFilter environment = match noteDirectives "" list with
      | .ok notes => .ok notes
      | .error notes => .error ⟨notes, .crashed⟩ := by
  obtain ⟨filter, hfilter, hlists⟩ := h
  rw [readFilter, finerFilter?_eq_some_iff.2 hfilter, ← lists_iff.1 hlists]
  rfl

theorem Strict.readFilter_eq {level : String} {list : List (List Char)}
    (h : Strict environment level list) : readFilter environment = match checkDirectives list with
      | .ok _ => .ok ""
      | .error (.fault fault) => .error ⟨"", .failed (.badFilter level fault)⟩
      | .error .cut => .error ⟨"", .crashed⟩ := by
  obtain rfl := h.isLevel.unique (logLevel_ofEnvironment environment)
  have hnone : finerFilter? environment = none :=
    Option.eq_none_iff_forall_ne_some.2 fun filter hfilter =>
      h.noFiner filter (finerFilter?_eq_some_iff.1 hfilter)
  rw [readFilter, hnone, ← lists_iff.1 h.lists]
  rfl

theorem Filtered.readFilter_eq {notes : String} (h : Filtered environment notes) :
    readFilter environment = .ok notes := by
  cases h with
  | strict h hfollowed => rw [h.readFilter_eq, checkDirectives_eq_ok_iff.2 hfollowed]
  | lenient h hnoted => rw [h.readFilter_eq, hnoted.noteDirectives_eq]

theorem Refused.readFilter_eq {level : String} {fault : DirectiveFault}
    (h : Refused environment level fault) :
    readFilter environment = .error ⟨"", .failed (.badFilter level fault)⟩ := by
  cases h with
  | strict h hfirst hfaulty =>
    have hcheck := checkDirectives_eq_error_iff.2 ⟨_, hfirst, checkDirective_eq_fault_iff.2 hfaulty⟩
    rw [h.readFilter_eq, hcheck]

theorem Stopped.readFilter_eq {notes : String} (h : Stopped environment notes) :
    readFilter environment = .error ⟨notes, .crashed⟩ := by
  cases h with
  | strict h hfirst hcut =>
    have hcheck := checkDirectives_eq_error_iff.2 ⟨_, hfirst, checkDirective_eq_cut_iff.2 hcut⟩
    rw [h.readFilter_eq, hcheck]
  | lenient h hnoted => rw [h.readFilter_eq, hnoted.noteDirectives_eq]

theorem Strict.decided {level : String} {list : List (List Char)} (h : Strict environment level list) :
    Filtered environment "" ∨ (∃ fault, Refused environment level fault) ∨ Stopped environment "" := by
  cases hcheck : checkDirectives list with
  | ok => exact .inl (.strict h (checkDirectives_eq_ok_iff.1 hcheck))
  | error obstacle =>
    obtain ⟨directive, hfirst, hdirective⟩ := checkDirectives_eq_error_iff.1 hcheck
    cases obstacle with
    | cut => exact .inr (.inr (.strict h hfirst (checkDirective_eq_cut_iff.1 hdirective)))
    | fault fault =>
      exact .inr (.inl ⟨fault, .strict h hfirst (checkDirective_eq_fault_iff.1 hdirective)⟩)

/-- There is an outcome of the stage for each environment. -/
theorem filtered_or_refused_or_stopped (environment : String → Option Bytes) :
    (∃ notes, Filtered environment notes) ∨ (∃ level fault, Refused environment level fault) ∨
      ∃ notes, Stopped environment notes := by
  by_cases hfiner : ∃ filter, Holds environment "RUST_LOG" filter
  · obtain ⟨filter, hfilter⟩ := hfiner
    have h : Lenient environment (directives filter) := ⟨filter, hfilter, lists_iff.2 rfl⟩
    rcases noted_or_notedUntilCut (directives filter) with ⟨notes, hnoted⟩ | ⟨notes, hnoted⟩
    · exact .inl ⟨notes, .lenient h hnoted⟩
    · exact .inr (.inr ⟨notes, .lenient h hnoted⟩)
  · have h : Strict environment _ _ :=
      ⟨not_exists.1 hfiner, logLevel_ofEnvironment environment, lists_iff.2 rfl⟩
    rcases h.decided with hfiltered | ⟨fault, hrefused⟩ | hstopped
    · exact .inl ⟨"", hfiltered⟩
    · exact .inr (.inl ⟨_, fault, hrefused⟩)
    · exact .inr (.inr ⟨"", hstopped⟩)

/-! ## Ends of runs -/

section

variable (notes : String)

@[simp] theorem Exit.code_shown (text : String) : Exit.code ⟨notes, .shown text⟩ = 0 := rfl

@[simp] theorem Exit.code_failed (failure : Failure) : Exit.code ⟨notes, .failed failure⟩ = 1 := rfl

@[simp] theorem Exit.code_crashed : Exit.code ⟨notes, .crashed⟩ = 101 := rfl

end

/-- How a run on a command line ends. Each case says what a stage finds and that the stages before it are
passed, and nothing about later stages. -/
inductive Ends (environment : String → Option Bytes) (read : Option String → Except ReadFault Bytes) :
    List String → Exit → Prop
  | noKind : Ends environment read [] ⟨"", .failed .noKind⟩
  | unknownKind {word : String} {rest : List String} : (∀ kind : Kind, kind.word ≠ word) →
      Ends environment read (word :: rest) ⟨"", .failed (.unknownKind word)⟩
  | badFilter {kind : Kind} {rest : List String} {level : String} {fault : DirectiveFault} :
      Refused environment level fault →
      Ends environment read (kind.word :: rest) ⟨"", .failed (.badFilter level fault)⟩
  | crashed {kind : Kind} {rest : List String} {notes : String} : Stopped environment notes →
      Ends environment read (kind.word :: rest) ⟨notes, .crashed⟩
  | unreadable {kind : Kind} {rest : List String} {notes : String} {fault : ReadFault} :
      Filtered environment notes → read rest.head? = .error fault →
      Ends environment read (kind.word :: rest) ⟨notes, .failed (.unreadable rest.head? fault)⟩
  | badBody {kind : Kind} {rest : List String} {notes : String} {body : Bytes}
      {fault : DocumentError} :
      Filtered environment notes → read rest.head? = .ok body →
      fromXml kind.Record body = .error fault →
      Ends environment read (kind.word :: rest)
        ⟨notes, .failed (.badBody kind (.exchange (.document fault)))⟩
  | shown {kind : Kind} {rest : List String} {notes text : String} {body : Bytes}
      {record walked : kind.Record} :
      Filtered environment notes → read rest.head? = .ok body →
      fromXml kind.Record body = .ok record → kind.Same walked record →
      Json.Laid 0 (json walked) text.toList →
      Ends environment read (kind.word :: rest) ⟨notes, .shown (text ++ "\n")⟩

section

variable (kind : Kind) (rest : List String) (order : WalkOrder)

/-- The stages behind the first one, for a kind that there is. -/
theorem run_word : run environment read (kind.word :: rest) order =
    match readFilter environment with
    | .ok notes => Task.exit { kind, path := rest.head?, notes } (read rest.head?) order
    | .error exit => exit := by
  have hpath : (kind.word :: rest)[1]? = rest.head? := by cases rest <;> rfl
  have hkind : readKind (kind.word :: rest).head? = .ok kind := by
    rw [List.head?_cons, readKind, Kind.ofWord?_word]
  rw [run, Task.ofArguments, hkind, hpath]
  cases readFilter environment <;> rfl

/-- The stages behind the filter. -/
theorem run_filtered {notes : String} (h : Filtered environment notes) :
    run environment read (kind.word :: rest) order =
      Task.exit { kind, path := rest.head?, notes } (read rest.head?) order := by
  rw [run_word, h.readFilter_eq]

end

/-- The end of a run that gets to the record, by the order in which its metadata are walked. -/
theorem run_shown {kind : Kind} {rest : List String} {notes : String} {body : Bytes}
    {record : kind.Record} (hfilter : Filtered environment notes) (hread : read rest.head? = .ok body)
    (hbody : fromXml kind.Record body = .ok record) (order : WalkOrder) :
    run environment read (kind.word :: rest) order =
      ⟨notes, .shown ((json (kind.walked order record)).pretty ++ "\n")⟩ := by
  rw [run_filtered kind rest order hfilter, hread, Task.exit, Task.output]
  simp only [Kind.readJson_ok hbody]

/-- The order in which metadata are walked matters to runs that show a record, and to no others. -/
theorem Ends.run_eq {arguments : List String} {exit : Exit} (h : Ends environment read arguments exit)
    (hcode : exit.code ≠ 0) (order : WalkOrder) : run environment read arguments order = exit := by
  cases h with
  | noKind => rfl
  | @unknownKind word rest hword =>
    have hnone : Kind.ofWord? word = none :=
      Option.eq_none_iff_forall_ne_some.2 fun kind hkind => hword kind (Kind.word_of_ofWord? hkind)
    rw [run, Task.ofArguments, List.head?_cons, readKind, hnone]
  | badFilter h => rw [run_word, h.readFilter_eq]
  | crashed h => rw [run_word, h.readFilter_eq]
  | unreadable hfilter hread =>
    rw [run_filtered _ _ _ hfilter, hread]
    rfl
  | badBody hfilter hread hbody =>
    rw [run_filtered _ _ _ hfilter, hread, Task.exit, Task.output]
    simp only [Kind.readJson_error hbody]
  | shown => exact absurd rfl hcode

theorem Ends.exists_run {arguments : List String} {exit : Exit}
    (h : Ends environment read arguments exit) :
    ∃ order, run environment read arguments order = exit := by
  by_cases hcode : exit.code = 0
  case neg => exact ⟨.kept, h.run_eq hcode .kept⟩
  cases h with
  | noKind | unknownKind | badFilter | crashed | unreadable | badBody => exact absurd hcode (by simp)
  | shown hfilter hread hbody hsame hlaid =>
    obtain ⟨order, rfl⟩ := Kind.exists_walked_iff.2 hsame
    exact ⟨order, by rw [run_shown hfilter hread hbody, Json.laid_iff.1 hlaid]⟩

theorem ends_run (environment : String → Option Bytes)
    (read : Option String → Except ReadFault Bytes) (arguments : List String) (order : WalkOrder) :
    Ends environment read arguments (run environment read arguments order) := by
  have ofEnd {exit : Exit} (h : Ends environment read arguments exit) (hcode : exit.code ≠ 0) :
      Ends environment read arguments (run environment read arguments order) :=
    h.run_eq hcode order ▸ h
  -- The first stage that is not passed tells the end.
  cases arguments with
  | nil => exact ofEnd .noKind (by simp)
  | cons word rest =>
    by_cases hword : ∃ kind : Kind, kind.word = word
    case neg => exact ofEnd (.unknownKind (not_exists.1 hword)) (by simp)
    obtain ⟨kind, rfl⟩ := hword
    rcases filtered_or_refused_or_stopped environment with
      ⟨notes, hfilter⟩ | ⟨level, fault, hrefused⟩ | ⟨notes, hstopped⟩
    · cases hread : read rest.head? with
      | error fault => exact ofEnd (.unreadable hfilter hread) (by simp)
      | ok body =>
        cases hbody : fromXml kind.Record body with
        | error fault => exact ofEnd (.badBody hfilter hread hbody) (by simp)
        | ok record =>
          rw [run_shown hfilter hread hbody]
          exact .shown hfilter hread hbody (Kind.exists_walked_iff.1 ⟨order, rfl⟩) (Json.laid_iff.2 rfl)
    · exact ofEnd (.badFilter hrefused) (by simp)
    · exact ofEnd (.crashed hstopped) (by simp)

/-! ## Main statement -/

/-- What a run can end with, over all orders in which metadata can be walked, are the ends of `Ends`. A run
succeeds if and only if all four stages are passed; then it shows the record, or one that is the same, as JSON
with the end of a line behind it. Any other run shows nothing, and exits with code 1 unless the filter
stops it. No body, not even an empty one, is taken for no body. -/
theorem run_ends (environment : String → Option Bytes)
    (read : Option String → Except ReadFault Bytes) (arguments : List String) :
    (∀ exit, Ends environment read arguments exit ↔
      ∃ order, run environment read arguments order = exit) ∧
    ∀ order,
      let exit := run environment read arguments order
      (exit.code = 0 ↔ ∃ (kind : Kind) (rest : List String) (body : Bytes) (record : kind.Record),
        arguments = kind.word :: rest ∧ (∃ notes, Filtered environment notes) ∧
        read rest.head? = .ok body ∧ fromXml kind.Record body = .ok record ∧
        ∃ walked text, kind.Same walked record ∧ Json.Laid 0 (json walked) text.toList ∧
          exit.output = text ++ "\n") ∧
      (exit.code = 101 ↔ ∃ (kind : Kind) (rest : List String), arguments = kind.word :: rest ∧
        ∃ notes, Stopped environment notes) ∧
      (exit.code ≠ 0 → exit.output = "" ∧ (exit.code ≠ 101 → exit.code = 1)) ∧
      ∀ (kind : Kind) (body : Bytes), kind.readJson body order ≠ .error .noBody := by
  have hends := ends_run environment read arguments
  refine ⟨fun exit => ⟨Ends.exists_run, ?_⟩, fun order => ?_⟩
  · rintro ⟨order, rfl⟩
    exact hends order
  intro exit
  have hend : Ends environment read arguments exit := hends order
  refine ⟨⟨fun hcode => ?_, ?_⟩, ⟨fun hcode => ?_, ?_⟩, fun hcode => ?_, fun kind body =>
    kind.readJson_ne_noBody body order⟩
  · generalize exit = ended at hend hcode ⊢
    cases hend with
    | shown hfilter hread hbody hsame hlaid =>
      exact ⟨_, _, _, _, rfl, ⟨_, hfilter⟩, hread, hbody, _, _, hsame, hlaid, rfl⟩
    | noKind | unknownKind | badFilter | crashed | unreadable | badBody => exact absurd hcode (by simp)
  · rintro ⟨kind, rest, body, record, rfl, ⟨notes, hfilter⟩, hread, hbody, -⟩
    exact congrArg Exit.code (run_shown hfilter hread hbody order)
  · generalize exit = ended at hend hcode
    cases hend with
    | crashed hstopped => exact ⟨_, _, rfl, _, hstopped⟩
    | noKind | unknownKind | badFilter | unreadable | badBody | shown => exact absurd hcode (by simp)
  · rintro ⟨kind, rest, rfl, notes, hstopped⟩
    exact congrArg Exit.code ((Ends.crashed hstopped).run_eq (by simp) order)
  · generalize exit = ended at hend hcode ⊢
    cases hend with
    | shown => exact absurd rfl hcode
    | noKind | unknownKind | badFilter | unreadable | badBody => exact ⟨rfl, fun _ => rfl⟩
    | crashed => exact ⟨rfl, fun hcrash => absurd rfl hcrash⟩

/-- Three runs that do not end as a look at their stages would have it. A log level is cut inside a character;
a finer filter has something to be noted before the body turns out to be missing; and a finer filter that is no
text leaves it to the log level to fail, though the body can be read as a record. -/
theorem run_ends_unexpected :
    let missing : ReadFault := ⟨"No such file or directory", 2⟩
    let body := encode "<S><ShareUsage>1</ShareUsage></S>"
    let cut := run (fun name => if name = "LOG_LEVEL" then some (encode " é=off") else none)
      (fun _ => .error missing) ["ranges", "missing.xml"]
    let noted := run (fun name => if name = "RUST_LOG" then some (encode "!") else none)
      (fun _ => .error missing) ["ranges", "missing.xml"]
    let unread := run (fun name => if name = "RUST_LOG" then some [0xFF] else
      if name = "LOG_LEVEL" then some (encode "=") else none) (fun _ => .ok body) ["share-stats"]
    cut.code = 101 ∧
      noted.errors = note ['!'] .form ++ (Failure.unreadable (some "missing.xml") missing).report ∧
      noted.errors ≠ (Failure.unreadable (some "missing.xml") missing).report ∧
      fromXml ShareStats body = .ok ⟨1⟩ ∧ unread.code = 1 := by
  decide +kernel

/-- An unknown kind on the command line, with a log level that cannot be followed and no file there: what
fails first is the kind. -/
example :
    run (fun name => if name = "LOG_LEVEL" then some (encode "=") else none)
      (fun _ => .error ⟨"No such file or directory", 2⟩) ["share", "body.xml"] =
      ⟨"", .failed (.unknownKind "share")⟩ :=
  Ends.run_eq (.unknownKind fun kind => by cases kind <;> decide) (by simp) .kept

end ShareWire.Inspect
