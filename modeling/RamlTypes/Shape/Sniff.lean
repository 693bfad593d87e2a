import RamlTypes.Kind

/-!
# The kind of a declaration without a type

The kind follows from the names of the facets. The first facet of a file, an object or an array
decides; without one the last facet of a string or an integer does, and a string is the default.
-/

namespace RamlTypes.Kind

/-- The keys that suggest a string. -/
def stringFacets : List String := ["minLength", "maxLength", "pattern", "enum"]

/-- The keys that suggest an integer. -/
def integerFacets : List String := ["minimum", "maximum", "format"]

/-- The keys that tell a file. -/
def fileFacets : List String := ["fileTypes"]

/-- The keys that tell an object. -/
def objectFacets : List String :=
  ["properties", "additionalProperties", "minProperties", "maxProperties", "discriminator",
    "discriminatorValue"]

/-- The keys that tell an array. -/
def arrayFacets : List String := ["items", "minItems", "maxItems", "uniqueItems"]

/-- Scans facet names, starting from the kind that the names before suggest. -/
def sniffFrom (suggested : Kind) : List String → Kind
  | [] => suggested
  | key :: rest =>
    if key ∈ stringFacets then sniffFrom .string rest
    else if key ∈ integerFacets then sniffFrom .integer rest
    else if key ∈ fileFacets then .file
    else if key ∈ objectFacets then .object
    else if key ∈ arrayFacets then .array
    else sniffFrom suggested rest

/-- The kind that facet names suggest. -/
def sniff (keys : List String) : Kind :=
  sniffFrom .string keys

end RamlTypes.Kind
