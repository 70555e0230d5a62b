import QueryPushdown.Pattern.Age
import QueryPushdown.Pattern.Segmentation

/-!
# Classes by name

A pattern can name a class of characters by a property, a general category, a group of categories
or a script. Names are compared without case, blanks, hyphens and underscores, and without a
leading `is`. `ClassName.named?` takes a single name and `ClassName.valued?` a property with a
value.
-/

namespace QueryPushdown.Pattern.ClassName

open CharGroup

/-- Properties that are made of categories, with their names. -/
def derivedProperties : List NamedCharSet := [
  ⟨["alpha", "alphabetic"], alphabetic⟩,
  ⟨["cased"], cased⟩,
  ⟨["ci", "caseignorable"], caseIgnorable⟩,
  ⟨["cwcf", "changeswhencasefolded"], casefolded⟩,
  ⟨["cwcm", "changeswhencasemapped"], casemapped⟩,
  ⟨["cwl", "changeswhenlowercased"], lowercased⟩,
  ⟨["cwt", "changeswhentitlecased"], titlecased⟩,
  ⟨["cwu", "changeswhenuppercased"], uppercased⟩,
  ⟨["grbase", "graphemebase"], graphemeBase⟩,
  ⟨["grext", "graphemeextend"], graphemeExtend⟩,
  ⟨["idc", "idcontinue"], idContinue⟩,
  ⟨["ids", "idstart"], idStart⟩,
  ⟨["lower", "lowercase"], lowercase⟩,
  ⟨["math"], math⟩,
  ⟨["oalpha", "otheralphabetic"], Property.otherAlphabetic⟩,
  ⟨["odi", "otherdefaultignorablecodepoint"], Property.otherDefaultIgnorable⟩,
  ⟨["ogrext", "othergraphemeextend"], Property.otherGraphemeExtend⟩,
  ⟨["oidc", "otheridcontinue"], Property.otherIdContinue⟩,
  ⟨["oids", "otheridstart"], Property.otherIdStart⟩,
  ⟨["olower", "otherlowercase"], Property.otherLowercase⟩,
  ⟨["omath", "othermath"], Property.otherMath⟩,
  ⟨["oupper", "otheruppercase"], Property.otherUppercase⟩,
  ⟨["upper", "uppercase"], uppercase⟩,
  ⟨["xidc", "xidcontinue"], idContinue.diff Property.notNormalContinue⟩,
  ⟨["xids", "xidstart"], idStart.diff Property.notNormalStart⟩]

/-- Groups of categories with their names. -/
def categoryGroups : List NamedCharSet := [
  ⟨["any"], .all⟩,
  ⟨["ascii"], .ascii⟩,
  ⟨["assigned"], assigned⟩,
  ⟨["cn", "unassigned"], unassigned⟩,
  ⟨["lc", "casedletter"], casedLetter⟩,
  ⟨["l", "letter"], letter⟩,
  ⟨["m", "mark", "combiningmark"], mark⟩,
  ⟨["n", "number"], number⟩,
  ⟨["p", "punctuation", "punct"], punctuation⟩,
  ⟨["s", "symbol"], symbol⟩,
  ⟨["z", "separator"], separator⟩,
  ⟨["c", "other"], other⟩]

/-- The set that goes by a name in a list. -/
def find? (sets : List NamedCharSet) (name : String) : Option CharSet :=
  (sets.find? (·.names.contains name)).map (·.set)

def property? (name : String) : Option CharSet := find? (derivedProperties ++ Property.listed) name

def category? (name : String) : Option CharSet := find? (categoryGroups ++ Category.assigned) name

def script? (name : String) : Option CharSet := find? Script.all name

/-- The characters that texts in a script use. -/
def scriptExtension? (name : String) : Option CharSet :=
  (Script.named? Script.all name).map Script.extended

/-- A name without what does not count in it. The one name that a leading `is` belongs to is
`isc`. -/
def plain (name : List Char) : String :=
  let clean := fun (cs : List Char) =>
    (cs.filter fun c => c.toNat < 128 && c != ' ' && c != '_' && c != '-').map Char.toLower
  match name with
  | i :: s :: rest =>
    if i.toLower = 'i' ∧ s.toLower = 's' then
      if clean rest = ['c'] then "isc" else String.ofList (clean rest)
    else String.ofList (clean name)
  | _ => String.ofList (clean name)

/-- The class with a name. -/
def named? (name : List Char) : Option CharSet :=
  let name := plain name
  ((property? name).orElse fun _ => category? name).orElse fun _ => script? name

/-- The class of the characters with a value of a property. -/
def valued? (property value : List Char) : Option CharSet :=
  let value := plain value
  match plain property with
  | "gc" | "generalcategory" => category? value
  | "sc" | "script" => script? value
  | "scx" | "scriptextensions" => scriptExtension? value
  | "age" => Age.upTo? value Age.versions
  | "gcb" | "graphemeclusterbreak" => find? Segmentation.graphemeClusterBreaks value
  | "wb" | "wordbreak" => find? Segmentation.wordBreaks value
  | "sb" | "sentencebreak" => find? Segmentation.sentenceBreaks value
  | _ => none

end QueryPushdown.Pattern.ClassName
