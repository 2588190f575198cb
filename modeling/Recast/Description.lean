/-
Descriptions of contexts, registries and resolutions, for people who look for
the reason of an answer. Conversions are functions and are not shown.
-/
import Recast.Converter
import Recast.Ty.Description

namespace Recast

/-- The constructor of a character set. -/
def Charset.tag : Charset → String
  | .utf8 => "Utf8"
  | .latin1 => "Latin1"
  | .ascii => "Ascii"

/-- A pair of source and target type by their names. -/
def pairText (source target : Ty) : String := source.name ++ " -> " ++ target.name

def Context.description (c : Context) : String :=
  withFields "ConversionContext"
    [("zone", String.ofList c.env.zone.text), ("locale", Text.quoted c.env.locale),
     ("charset", c.env.charset.tag),
     ("max_enum_name_length", Text.intText c.env.maxNameLength),
     ("overrides", bracketed (c.overrides.map fun ((source, target), _) =>
        withFields "ConversionPair"
          [("source", source.description), ("target", target.description)] false))] true

def Reshape.description : Reshape → String
  | .toArray component => withFields "ToArray" [("component", component.description)] false
  | .toCollection type => withFields "ToCollection" [("kind", type.description)] false
  | .toEnumSet E => withFields "ToEnumSet" [("enum_type", E.description)] false

def Resolution.description : Resolution → String
  | .direct _ => applied "Direct" [".."]
  | .reshape plan => applied "Structural" [plan.description]
  | .ambiguous => "Ambiguous"
  | .unsupported => "Unsupported"

def Entry.description (e : Entry) : String :=
  withFields "RegistryEntry"
    [("index", Text.intText e.index), ("source", e.source.description)] true

def Registry.description (r : Registry) : String :=
  withFields "Registry"
    [("families", Text.intText r.families.length), ("entries", Text.intText r.size),
     ("factories", Text.intText r.factories.length)] false

end Recast
