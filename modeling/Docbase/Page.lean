/-
Pages of projected documents: what a caller asks for, the window that a request
means for a given number of documents, and the page that comes back.
-/
import Docbase.Numeric.Integer
import Docbase.Projection.Basic
import Docbase.Query

namespace Docbase

/-- A page number below one means the first page, a page size below one everything. -/
structure PageRequest where
  page : Int64
  pageSize : Int64
  deriving DecidableEq

/-- A request resolved against a number of documents. -/
structure PageWindow where
  page : Nat
  pageSize : Nat
  /-- The documents to pass over, when there is more than one page. -/
  skip : Option Nat
  /-- The documents to return, when there is more than one page. -/
  limit : Option Nat
  deriving DecidableEq

namespace PageRequest

/-- A window of at least one document per page. Documents that fit one page are all
on page one; a product too large for a count becomes the largest count. -/
def window (r : PageRequest) (count : Nat) : PageWindow :=
  let page := max r.page.toInt.toNat 1
  let size := if 1 ≤ r.pageSize.toInt then r.pageSize.toInt.toNat else count
  if size < count then ⟨page, size, some (min ((page - 1) * size) Integer.countMax), some size⟩
  else ⟨1, count, none, none⟩

end PageRequest

/-- Which fields, which page, and how fields are named. -/
structure ProjectionQuery where
  fields : Selection
  request : PageRequest
  strategy : NamingStrategy

namespace ProjectionQuery

def empty : ProjectionQuery := ⟨[], ⟨0, 0⟩, .verbatim⟩

/-- Selects or excludes a field; the identifying field cannot be chosen. -/
def select (q : ProjectionQuery) (field : String) (included : Bool) : ProjectionQuery :=
  if field = idField || field = logicalIdField then q
  else { q with fields := q.fields ++ [⟨field, included⟩] }

def withPage (q : ProjectionQuery) (page : Int64) : ProjectionQuery :=
  { q with request := { q.request with page } }

def withPageSize (q : ProjectionQuery) (pageSize : Int64) : ProjectionQuery :=
  { q with request := { q.request with pageSize } }

/-- Reads one pair of a query string: a page, a page size, or a field that the value
`1` includes and any other excludes. A page that is no number counts as a field. -/
def withPair (q : ProjectionQuery) (key value : String) : ProjectionQuery :=
  match Integer.int64? value with
  | some i =>
    if key = "@Page" then q.withPage i
    else if key = "@PageSize" then q.withPageSize i
    else q.select key (value = "1")
  | none => q.select key (value = "1")

def ofPairs (pairs : List (String × String)) : ProjectionQuery :=
  pairs.foldl (fun q p => q.withPair p.1 p.2) empty

/-- The selection that the store gets; it starts with the identifying field. -/
def selection (q : ProjectionQuery) : Selection := ⟨idField, true⟩ :: q.fields

/-- The store query for one window. -/
def storeQuery (q : ProjectionQuery) (w : PageWindow) : Query :=
  { Query.all with offset := w.skip, limit := w.limit, selection := q.selection }

end ProjectionQuery

/-- One page: the number of all documents, the page size and number after
normalisation, and the projections together with their tables. -/
structure Page where
  count : Nat
  pageSize : Nat
  page : Nat
  tables : NameTables
  result : List Projection

namespace Page

/-- The page of the documents that a window shows, over one new table. -/
def ofDocuments (count : Nat) (w : PageWindow) (ds : List Document) (s : NamingStrategy) : Page :=
  let (tables, t) := NameTables.empty.create []
  let (tables, result) := Projection.ofDocuments tables t s ds
  ⟨count, w.pageSize, w.page, tables, result⟩

/-- The names of the table of the first projection. -/
def firstNames? (p : Page) : Option (List String) :=
  p.result.head?.map fun first => p.tables.names first.table

/-- Whether all neighbours share one table. -/
def sharesTable (p : Page) : Bool :=
  (p.result.zip p.result.tail).all fun (a, b) => a.sharesTable b

end Page
end Docbase
