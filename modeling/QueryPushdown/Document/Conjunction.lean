import QueryPushdown.Document.Bson

/-!
# Combining filter documents

A filter document asks all its conditions at once. `Filter.and` puts the conditions of two filters
into one document as long as no condition of one gets in the way of the other, and otherwise lists
both under `$and`. `Filter.or` lists both under `$or`.
-/

namespace QueryPushdown

/-- A document of conditions on fields, and of lists of filters under `$and`, `$or` and `$nor`. -/
abbrev Filter := Document

namespace Filter

def isOperator (name : String) : Bool := name.toList.head? == some '$'

/-- Whether all names are operators. Plain fields make an exact value. -/
def isOperators (fields : Document) : Bool := fields.all fun (name, _) => isOperator name

mutual

/-- Adds fields to a document, as far as none disagrees with one that is there. Tells whether all
were added. -/
def merge (into : Document) : List (String × Bson) → Document × Bool
  | [] => (into, true)
  | (name, b) :: rest =>
    match Fields.get? into name with
    | none => merge (Fields.insert into name b) rest
    | some existing =>
      let (merged, agreed) := mergeContent name existing b
      let into := Fields.insert into name merged
      if agreed then merge into rest else (into, false)

/-- Joins the contents of one field: operators field by field, lists under `$and` one after the
other, and anything else only if it is equal. -/
def mergeContent (name : String) (existing : Bson) : Bson → Bson × Bool
  | .document more =>
    match existing with
    | .document fields =>
      if isOperators fields then
        if isOperators more then
          let (fields, agreed) := merge fields more
          (.document fields, agreed)
        else (existing, false)
      else (existing, existing.same (.document more))
    | _ => (existing, false)
  | .array more =>
    match existing with
    | .array items =>
      if name = "$and" then (.array (items ++ more), true)
      else (existing, existing.same (.array more))
    | _ => (existing, false)
  | b => (existing, existing.same b)

end

/-- The filter of one condition. -/
def single (name : String) (content : Bson) : Filter := [(name, content)]

/-- The documents of a list, if it holds nothing else. -/
def documents? : List Bson → Option (List Document)
  | [] => some []
  | .document d :: rest => (documents? rest).map (d :: ·)
  | _ => none

/-- The filters listed under an operator, or the filter itself if it is anything else. -/
def operands (op : String) (f : Filter) : List Filter :=
  match f with
  | [(name, .array items)] => if name = op then (documents? items).getD [f] else [f]
  | _ => [f]

/-- Filters listed under an operator. -/
def listed (op : String) (fs : List Filter) : Filter := single op (.array (fs.map Bson.document))

/-- The filter that asks what both ask. -/
def and (lhs rhs : Filter) : Filter :=
  if lhs.isEmpty then rhs
  else if rhs.isEmpty then lhs
  else
    match merge lhs rhs with
    | (merged, true) => merged
    | (_, false) => listed "$and" (operands "$and" lhs ++ operands "$and" rhs)

/-- The filter that asks what one of both asks. -/
def or (lhs rhs : Filter) : Filter := listed "$or" (operands "$or" lhs ++ operands "$or" rhs)

end Filter

end QueryPushdown
