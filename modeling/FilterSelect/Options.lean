import FilterSelect.Sql.Name

/-!
# Options of the compiler

Two names are written into a statement as they stand: the alias of the queried table, and the
function that normalizes text. So they are checked first: neither may read as anything but a name,
and the alias may not be that of a join.
-/

namespace FilterSelect

/-- The two options. -/
inductive Setting
  | primaryAlias
  | normalizer
  deriving DecidableEq, Repr

/-- The option's name in messages and in the configuration. -/
def Setting.name : Setting → String
  | primaryAlias => "primary_alias"
  | normalizer => "normalizer"

/-- The names that the compiler writes without quotes. -/
structure Options where
  /-- The alias of the queried table. -/
  primaryAlias : String := "main"
  /-- The function that takes the accents off a text. -/
  normalizer : String := "unaccent"
  deriving DecidableEq, Repr

namespace Options

/-- The text of an option. -/
def get (o : Options) : Setting → String
  | .primaryAlias => o.primaryAlias
  | .normalizer => o.normalizer

/-- Whether the option is usable in a statement. -/
def accepts (o : Options) : Setting → Bool
  | .primaryAlias =>
    Sql.isName o.primaryAlias && !Sql.isKeyword o.primaryAlias && !Sql.isJoinAlias o.primaryAlias
  | .normalizer => Sql.isPath o.normalizer

/-- The first option that is not usable. -/
def fault? (o : Options) : Option Setting :=
  [Setting.primaryAlias, .normalizer].find? fun s => !o.accepts s

end Options

end FilterSelect
