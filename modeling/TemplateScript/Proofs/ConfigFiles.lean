import TemplateScript.Config.File
import TemplateScript.Proofs.Documents
import TemplateScript.Proofs.Files
import TemplateScript.Proofs.Utf8

namespace TemplateScript

/-!
# Configurations in files are read back

The schema takes the events of a configuration's document back to the
configuration, and the text of a document tells these events, so a stored
configuration is read back as it was.  What is stored is found again through
the path that it was stored under, and nothing else in the tree changes.

To store a configuration is to open a file and to write to it.  A path that no
file can be opened under is refused before anything happens.  Once the file is
open it has lost what it held, and what it holds in the end is as much of the
text as its medium has taken.
-/

@[simp] theorem Slot.ofKey?_key (slot : Slot) : Slot.ofKey? slot.key = some slot := by
  cases slot <;> simp [Slot.key, Slot.ofKey?]

namespace Config

open Json (Document Consumer)

/-! ## From a configuration to its text and back -/

theorem hears_key (stage : Stage) (name : String) :
    Schema.consumer.hears ⟨stage, 0⟩ (.key name) = .key name := by
  simp [Consumer.hears, Schema.consumer, Schema.keyCare, Json.Care.keep]

theorem hears_text {stage : Stage} (awaited : Schema.awaitsNothing stage = false) (text : String) :
    Schema.consumer.hears ⟨stage, 0⟩ (.text text) = .text text := by
  simp [Consumer.hears, Schema.consumer, Schema.valueCare, awaited, Json.Care.keep]

/-- A member for a slot that has no string yet. -/
theorem follow_slot (outer : Draft) (d : WrappersDraft) {slot : Slot}
    (fresh : d.texts.get? slot = none) (text : String) (events : List Json.Event) :
    Schema.consumer.follow ⟨.wrappers outer d, 0⟩ (.key slot.key :: .text text :: events) =
      Schema.consumer.follow ⟨.wrappers outer ⟨d.texts.set text slot, some slot⟩, 0⟩ events := by
  have named : Schema.consumer.accept ⟨.wrappers outer d, 0⟩ (.key slot.key) =
      .ok ⟨.wrappers outer { d with awaiting := some slot }, 0⟩ := by
    simp [Schema.consumer, Schema.accept, Schema.acceptWrappers, fresh]
  rw [Consumer.follow_cons, hears_key, named]
  simp only
  rw [Consumer.follow_cons, hears_text rfl]
  rfl

theorem follow_wrappers (d : Draft) (w : Wrappers) (events : List Json.Event) :
    Schema.consumer.follow ⟨.config { d with awaiting := some .wrappers }, 0⟩
        (w.document.events ++ events) =
      Schema.consumer.follow
        ⟨.config ⟨d.preset, some (some w), some .wrappers⟩, 0⟩ events := by
  simp only [Wrappers.document, Document.events, Document.eventsOfMembers, List.append_nil,
    List.cons_append, List.nil_append]
  rw [Consumer.follow_cons]
  change Schema.consumer.follow ⟨.wrappers { d with awaiting := some .wrappers } ⟨{}, none⟩, 0⟩ _ = _
  -- Every slot is written once, so it is fresh when its key comes.
  rw [follow_slot _ _ rfl, follow_slot _ _ rfl, follow_slot _ _ rfl, follow_slot _ _ rfl,
    Consumer.follow_cons]
  rfl

theorem follow_field {d : Draft} {name : String} {f : Field} (known : Field.ofKey? name = some f)
    (fresh : d.has f = false) (events : List Json.Event) :
    Schema.consumer.follow ⟨.config d, 0⟩ (.key name :: events) =
      Schema.consumer.follow ⟨.config { d with awaiting := some f }, 0⟩ events := by
  have named : Schema.consumer.accept ⟨.config d, 0⟩ (.key name) =
      .ok ⟨.config { d with awaiting := some f }, 0⟩ := by
    simp [Schema.consumer, Schema.accept, Schema.acceptConfig, known, fresh]
  rw [Consumer.follow_cons, hears_key, named]

theorem events_document (c : Config) :
    c.document.events =
      .openObject :: .key "preset" :: (c.preset.elim [.null] (fun name => [.text name]) ++
        .key "delimiters" :: (c.wrappers.elim [.null] (fun w => w.document.events) ++
          [.closeObject])) := by
  rcases c with ⟨_ | name, _ | w⟩ <;>
    simp [document, Document.events, Document.eventsOfMembers]

theorem follow_presetValue (d : Draft) (preset : Option String) (events : List Json.Event) :
    Schema.consumer.follow ⟨.config { d with awaiting := some .preset }, 0⟩
        (preset.elim [.null] (fun name => [.text name]) ++ events) =
      Schema.consumer.follow ⟨.config ⟨some preset, d.wrappers, some .preset⟩, 0⟩ events := by
  cases preset with
  | none => rfl
  | some name =>
    change Schema.consumer.follow _ (.text name :: events) = _
    rw [Consumer.follow_cons, hears_text rfl]
    rfl

theorem follow_wrappersValue (d : Draft) (wrappers : Option Wrappers) (events : List Json.Event) :
    Schema.consumer.follow ⟨.config { d with awaiting := some .wrappers }, 0⟩
        (wrappers.elim [.null] (fun w => w.document.events) ++ events) =
      Schema.consumer.follow ⟨.config ⟨d.preset, some wrappers, some .wrappers⟩, 0⟩ events := by
  cases wrappers with
  | none => rfl
  | some w => exact follow_wrappers d w events

/-- The schema makes of a configuration's events the configuration itself. -/
theorem follow_document (c : Config) :
    Schema.consumer.follow Schema.begin c.document.events = .ok ⟨.done c, 0⟩ := by
  rw [events_document, Consumer.follow_cons]
  change Schema.consumer.follow ⟨.config { awaiting := none }, 0⟩ _ = _
  rw [follow_field (f := .preset) rfl rfl, follow_presetValue,
    follow_field (f := .wrappers) rfl rfl, follow_wrappersValue]
  rfl

theorem parse_render (c : Config) : parse c.render.toList = .ok c := by
  simp only [parse, render, Json.Reader.read_render, follow_document]

theorem ofBytes_render (p : Path) (c : Config) :
    ofBytes p (Utf8.encode c.render.toList) = .ok c := by
  simp only [ofBytes, Utf8.decode?_encode, parse_render]

/-! ## From a world to the next and back -/

theorem run_loadWrappers (p : Path) {c : Config} {w : World}
    (loaded : (load p).run w = (.ok c, w)) : (loadWrappers p).run w = (c.resolve, w) := by
  change ((load p).bind fun c => .ofExcept c.resolve).run w = _
  rw [Action.run_bind, loaded]
  change (Action.ofExcept c.resolve).run w = _
  cases c.resolve <;> rfl

/-- A configuration is saved by one write. -/
theorem run_save (c : Config) (p : Path) (w : World) :
    (c.save p).run w =
      let written := w.files.write w.medium p (Utf8.encode c.render.toList)
      (written.2.mapError .io, { w with files := written.1 }) := by
  unfold save
  rw [Action.run]
  rcases w.files.write w.medium p (Utf8.encode c.render.toList) with ⟨files, cause | done⟩ <;> rfl

theorem run_save_created (c : Config) {p : Path} {w : World} {parent : Location} {name : String}
    (creates : w.files.Creates p parent name) :
    let medium := w.medium (parent ++ [name])
    (c.save p).run w =
      (medium.answer.mapError .io,
        { w with
          files := w.files.insert (parent ++ [name])
            (.file (medium.kept (Utf8.encode c.render.toList))) }) := by
  rw [run_save, creates.write]

theorem run_save_refused (c : Config) {p : Path} {w : World}
    (nowhere : ¬ ∃ parent name, w.files.Creates p parent name) :
    ∃ cause, (c.save p).run w = (.error (.io cause), w) := by
  rcases FileTree.write_refused nowhere w.medium (Utf8.encode c.render.toList) with
    ⟨cause, refused⟩
  refine ⟨cause, ?_⟩
  rw [run_save, refused]
  rfl

theorem run_load_file {p : Path} {w : World} {content : Bytes}
    (stored : w.files.access p = .ok (.file content)) : (load p).run w = (ofBytes p content, w) := by
  unfold load
  rw [Action.run, stored]
  simp only
  cases ofBytes p content <;> rfl

theorem run_load {c : Config} {p : Path} {w : World}
    (stored : w.files.access p = .ok (.file (Utf8.encode c.render.toList))) :
    (load p).run w = (.ok c, w) := by
  rw [run_load_file stored, ofBytes_render]

/-- Saving succeeds exactly where a file can be opened on a medium that does not
fail. -/
theorem save_eq_ok_iff (c : Config) (p : Path) (w : World) :
    ((c.save p).run w).1 = .ok () ↔
      ∃ parent name, w.files.Creates p parent name ∧
        (w.medium (parent ++ [name])).answer = .ok () := by
  constructor
  · intro succeeded
    by_cases somewhere : ∃ parent name, w.files.Creates p parent name
    · rcases somewhere with ⟨parent, name, creates⟩
      refine ⟨parent, name, creates, ?_⟩
      rw [run_save_created c creates] at succeeded
      cases told : (w.medium (parent ++ [name])).answer with
      | ok done => rfl
      | error cause =>
        rw [told] at succeeded
        cases succeeded
    · rcases run_save_refused c somewhere with ⟨cause, refused⟩
      rw [refused] at succeeded
      cases succeeded
  · rintro ⟨parent, name, creates, told⟩
    rw [run_save_created c creates, told]
    rfl

/-- What is behind a file that has been written on a medium that keeps it. -/
theorem loads_kept (c : Config) {p : Path} {w : World} {files : FileTree} {place : Location}
    (wrote : w.files.Wrote p ((w.medium place).kept (Utf8.encode c.render.toList)) files place)
    (keeps : w.medium place = .keeps) :
    (load p).run { w with files := files } = (.ok c, { w with files := files }) ∧
      (loadWrappers p).run { w with files := files } = (c.resolve, { w with files := files }) := by
  rw [keeps] at wrote
  have loaded := run_load (c := c) (w := { w with files := files }) wrote.access
  exact ⟨loaded, run_loadWrappers p loaded⟩

/-- A configuration is saved wherever a file can be created or replaced on a medium
that does not fail.  Nothing but its own file has changed then, and on a medium that
keeps what is written it is loaded again as it was.  If it is not saved, nothing at
all has changed, or the medium has failed and the file holds the bytes that it took
before. -/
theorem load_after_save (c : Config) (p : Path) (w : World) :
    let text := Utf8.encode c.render.toList
    let saved := (c.save p).run w
    (saved.1 = .ok () ↔
      ∃ parent name, w.files.Creates p parent name ∧
        (w.medium (parent ++ [name])).answer = .ok ()) ∧
    (saved.1 = .ok () →
      ∃ place, w.files.Wrote p ((w.medium place).kept text) saved.2.files place ∧
        saved.2 = { w with files := saved.2.files } ∧
        (w.medium place = .keeps →
          (load p).run saved.2 = (.ok c, saved.2) ∧
          (loadWrappers p).run saved.2 = (c.resolve, saved.2))) ∧
    ∀ failure, saved.1 = .error failure →
      saved.2 = w ∨
      ∃ place taken cause, w.medium place = .fails taken cause ∧ failure = .io cause ∧
        w.files.Wrote p (text.take taken) saved.2.files place ∧
        saved.2 = { w with files := saved.2.files } := by
  intro text saved
  refine ⟨save_eq_ok_iff c p w, ?_, ?_⟩
  · intro succeeded
    rcases (save_eq_ok_iff c p w).mp succeeded with ⟨parent, name, creates, -⟩
    have ran : saved = _ := run_save_created c creates
    have wrote := creates.wrote ((w.medium (parent ++ [name])).kept text)
    rw [ran]
    exact ⟨parent ++ [name], wrote, rfl, loads_kept c wrote⟩
  · intro failure failed
    by_cases somewhere : ∃ parent name, w.files.Creates p parent name
    · rcases somewhere with ⟨parent, name, creates⟩
      have ran : saved = _ := run_save_created c creates
      have wrote := creates.wrote ((w.medium (parent ++ [name])).kept text)
      rw [ran] at failed ⊢
      cases lies : w.medium (parent ++ [name]) with
      | keeps =>
        rw [lies] at failed
        cases failed
      | discards =>
        rw [lies] at failed
        cases failed
      | fails taken cause =>
        rw [lies] at failed wrote
        cases failed
        exact .inr ⟨parent ++ [name], taken, cause, lies, rfl, wrote, rfl⟩
    · rcases run_save_refused c somewhere with ⟨cause, refused⟩
      have ran : saved = _ := refused
      rw [ran]
      exact .inl rfl

/-- A null device takes a configuration and gives none back, and a disk that is full
leaves a file empty that held something before. -/
theorem load_after_save_unless_lost :
    let c : Config := ⟨some "print", none⟩
    let device : Path := ⟨"/dev/null"⟩
    let null : World :=
      { files := ⟨[(["dev"], .directory), (["dev", "null"], .file [])], []⟩
        medium := fun place => if place = ["dev", "null"] then .discards else .keeps }
    let noSpace : IoFailure := ⟨.other "StorageFull", "No space left on device (os error 28)"⟩
    let full : World :=
      { files := ⟨[(["c.json"], .file [0x5b, 0x5d])], []⟩, medium := fun _ => .fails 0 noSpace }
    let lost := (c.save device).run null
    let broken := (c.save ⟨"c.json"⟩).run full
    (lost.1 = .ok () ∧
      ((load device).run lost.2).1 = .error (.invalidConfig "/dev/null" .truncated [])) ∧
    broken.1 = .error (.io noSpace) ∧
      broken.2.files.find? ["c.json"] = some (.file []) := by
  decide +kernel

end Config

end TemplateScript
