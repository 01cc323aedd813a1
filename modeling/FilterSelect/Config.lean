import FilterSelect.Options
import FilterSelect.Toml.Document

/-!
# Configuration

A configuration is a TOML document with the table `compiler`, whose entries are the options of the
compiler by name. Each is a string and may be left out, and so may the table; there is nothing
else in a configuration. The table can also be given as an array, with the options in order.

* `Config.read`: the options of a configuration. They are not checked yet.
-/

namespace FilterSelect.Config

/-- The option of a name. -/
def setting? (name : String) : Option Setting :=
  [Setting.primaryAlias, .normalizer].find? fun s => s.name = name

/-- The options with a text for one of them. -/
def set (o : Options) (setting : Setting) (text : String) : Options :=
  match setting with
  | .primaryAlias => { o with primaryAlias := text }
  | .normalizer => { o with normalizer := text }

/-- The options with one more entry of the table. -/
def setByName? (o : Options) (name : String) : Toml.Value → Option Options
  | .string text => (setting? name).map fun setting => set o setting text
  | _ => none

/-- The options that the table gives. Items of an array beyond the options do not count. -/
def ofItem? : Toml.Item → Option Options
  | .table _ entries =>
    entries.foldlM (fun o (name, item) =>
      match item with
      | .value v => setByName? o name v
      | _ => none) {}
  | .value (.table entries) =>
    entries.foldlM (fun o (path, v) =>
      match path with
      | [name] => setByName? o name v
      | _ => none) {}
  | .value (.array []) => some {}
  | .value (.array [.string primary]) => some (set {} .primaryAlias primary)
  | .value (.array (.string primary :: .string normalizer :: _)) =>
    some (set (set {} .primaryAlias primary) .normalizer normalizer)
  | _ => none

/-- The options of a configuration. -/
def read (text : String) : Except Toml.Fault Options := do
  match ← Toml.Document.read text with
  | [] => return {}
  | [("compiler", item)] => ((ofItem? item).map .ok).getD (.error .malformed)
  | _ => .error .malformed

end FilterSelect.Config
