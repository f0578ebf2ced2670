import Gatehouse.Settings.Json
import Gatehouse.Settings.Environment
import Gatehouse.Toml.Parser

/-!
# Settings from a file

A file is TOML text. What is read of it, the settings or the reason why there are none, is the
first layer over the usual values.

* `Settings.load`: all layers, from the file to the command line.
-/

namespace Gatehouse.Settings

/-- Reads settings from TOML. -/
def ofToml (text : List Char) : Except SettingsError Settings :=
  match (Toml.ofText? text).bind (Settings.ofJson? false) with
  | some s => .ok s
  | none => .error .unreadable

/-- Reads the settings of a file, given what reading its bytes leads to. -/
def ofFile (path : Files.Path) (content : Except Files.IoFault ByteArray) :
    Except SettingsError Settings :=
  match content with
  | .error e => .error (.file path e)
  | .ok bytes =>
    match String.fromUTF8? bytes with
    | none => .error (.file path (.other "stream did not contain valid UTF-8"))
    | some text => ofToml text.toList

/-- The settings of a file, if there is one, else the usual ones. -/
def base (path : Option Files.Path) (read : Files.Path → Except Files.IoFault ByteArray) :
    Except SettingsError Settings :=
  match path with
  | none => .ok {}
  | some path => ofFile path (read path)

/-- The settings of a file, if there is one, with what the environment and the command line say. -/
def load (path : Option Files.Path) (read : Files.Path → Except Files.IoFault ByteArray)
    (env : Environment) (flags : Flags) : Except SettingsError Settings := do
  let file ← base path read
  file.layered env flags

end Gatehouse.Settings
