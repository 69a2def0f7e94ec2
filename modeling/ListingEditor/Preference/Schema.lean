import ListingEditor.Preference.Param

/-!
Schemas: preferences are declared in layers, the most specific first. A layer may declare a preference again
that a more general layer declares, and its declaration is the one that counts.
-/

namespace ListingEditor.Preference

/-- The preferences that one member of a hierarchy declares. -/
structure Layer where
  name : String
  params : List Param
  deriving DecidableEq, Repr

/-- A named hierarchy of declarations, the most specific layer first. -/
structure Schema where
  name : String
  layers : List Layer
  deriving DecidableEq, Repr

namespace Schema

/-- The declaration of a preference that counts: the first one. -/
def find? (schema : Schema) (keyword : String) : Option Param :=
  (schema.layers.flatMap (·.params)).find? (·.keyword == keyword)

/-- Keeps the first of the parameters with one keyword, leaving out those that have been seen. -/
def firsts (seen : List String) : List Param → List Param
  | [] => []
  | param :: params =>
    if seen.contains param.keyword then firsts seen params
    else param :: firsts (param.keyword :: seen) params

/-- The declarations that count, each keyword once, the most specific layer first. -/
def params (schema : Schema) : List Param := firsts [] (schema.layers.flatMap (·.params))

/-- The keywords of the preferences, in the order of `params`. -/
def keywords (schema : Schema) : List String := schema.params.map (·.keyword)

/-- The parameters that are saved, each keyword once, leaving out the keywords that have been saved. A
parameter that is not to be saved does not keep a later one with its keyword from being saved. -/
def saves (saved : List String) : List Param → List Param
  | [] => []
  | param :: params =>
    if saved.contains param.keyword || !param.saved then saves saved params
    else param :: saves (param.keyword :: saved) params

/-- The layers reduced to what is saved of them, without those of which nothing is. -/
def savedFrom (saved : List String) : List Layer → List Layer
  | [] => []
  | layer :: layers =>
    let params := saves saved layer.params
    let rest := savedFrom (params.map (·.keyword) ++ saved) layers
    if params.isEmpty then rest else { layer with params } :: rest

/-- What is saved of the schema, layer by layer. -/
def savedLayers (schema : Schema) : List Layer := savedFrom [] schema.layers

end Schema

/-- The preferences of a schema with their current values. -/
structure Settings where
  schema : Schema
  values : List (String × Value)
  deriving DecidableEq, Repr

/-- A preference that a schema does not have. -/
structure UnknownPreference where
  schema : String
  keyword : String
  deriving DecidableEq, Repr

/-- The message about an unknown preference. -/
def UnknownPreference.message (e : UnknownPreference) : String :=
  e.schema ++ " has no preference named " ++ e.keyword

namespace Settings

/-- The settings in which every preference has its default. -/
def defaults (schema : Schema) : Settings :=
  ⟨schema, schema.params.map fun param => (param.keyword, param.default)⟩

/-- The value of a preference. -/
def get? (settings : Settings) (keyword : String) : Option Value := settings.values.lookup keyword

/-- The value of a preference, absent if there is no such preference. -/
def get (settings : Settings) (keyword : String) : Value := (settings.get? keyword).getD .absent

/-- Changes the value of a preference. A name that is no preference changes nothing. -/
def set (settings : Settings) (keyword : String) (value : Value) : Settings :=
  { settings with
    values := settings.values.map fun entry =>
      if entry.1 == keyword then (keyword, value) else entry }

/-- Changes the values of several preferences, one after the other. -/
def setAll (settings : Settings) (values : List (String × Value)) : Settings :=
  values.foldl (fun s entry => s.set entry.1 entry.2) settings

/-- The settings of a schema with some values of one's own. Every name has to be a preference. -/
def create (schema : Schema) (values : List (String × Value)) :
    Except UnknownPreference Settings :=
  match values.find? fun entry => (schema.find? entry.1).isNone with
  | some entry => .error ⟨schema.name, entry.1⟩
  | none => .ok ((defaults schema).setAll values)

/-- Whether a preference differs from its default. -/
def isChanged (settings : Settings) : Bool :=
  settings.schema.params.any fun param => !param.default.same (settings.get param.keyword)

/-- Whether two settings have equal values. -/
def same (settings other : Settings) : Bool :=
  settings.values.length == other.values.length &&
    settings.values.all fun entry => (other.get? entry.1).any entry.2.same

end Settings

end ListingEditor.Preference
