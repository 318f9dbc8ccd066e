import TemplateScript.Action
import TemplateScript.Config.Schema

namespace TemplateScript
namespace Config

/-!
# Configurations in files
-/

/-- The name of the file that is looked for when no other is named. -/
def standardPath : Path := ⟨"scriptlet.config.json"⟩

/-- The configuration that the bytes at a path hold. -/
def ofBytes (p : Path) (bytes : Bytes) : Except Failure Config :=
  match Utf8.decode? bytes with
  | none => .error (.unreadableConfig p.spelling .notText)
  | some text =>
    match parse text with
    | .ok c => .ok c
    | .error fault => .error (.invalidConfig p.spelling fault text)

/-- Read a configuration. -/
def load (p : Path) : Action Config :=
  .access p fun
    | .error cause => .fail (.unreadableConfig p.spelling cause)
    | .ok .directory => .fail (.unreadableConfig p.spelling .directory)
    | .ok (.file bytes) => .ofExcept (ofBytes p bytes)

/-- Write a configuration. -/
def save (c : Config) (p : Path) : Action Unit :=
  .store p (Utf8.encode c.render.toList) fun
    | .ok () => .done ()
    | .error cause => .fail (.io cause)

/-- Write the standard configuration where nothing is found yet. -/
def init (p : Path) : Action Config :=
  .probe p fun
    | true => .fail (.configExists p.spelling)
    | false => do
      standard.save p
      return standard

/-- Read a configuration and take the wrappers that it chooses. -/
def loadWrappers (p : Path) : Action Wrappers := do
  let c ← load p
  .ofExcept c.resolve

end Config
end TemplateScript
