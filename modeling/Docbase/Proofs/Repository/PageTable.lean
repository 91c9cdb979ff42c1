/-
The name table of a page. A page shows the documents that the store has found, as projections over one new table
(`Repository.project_documents`). Its names are those that the keys of the documents resolve to, each once and in
the order in which they are met first, and every projection is as it would be over a table of its own, also
after later documents have made the table grow (`Repository.page_shares_names`).
-/
import Docbase.Proofs.Projection.SharedTable
import Docbase.Proofs.Repository.Paging

namespace Docbase.Repository

open Binding NameTables

variable {α : Type} {r : Repository α} {q : ProjectionQuery} {page : Page} {s t : Server}

/-- A page shows what has been found in its window, over a new table. -/
theorem project_documents (h : r.project q s = (.ok page, t)) :
    ∃ ds, Server.find r.binding.collection (q.storeQuery (q.request.window (r.documents s).length)) s = (.ok ds, s) ∧
      page = Page.ofDocuments (r.documents s).length (q.request.window (r.documents s).length) ds q.strategy := by
  obtain ⟨-, h⟩ := project_eq_ok_iff.1 h
  obtain ⟨ds, u, hfind, hread⟩ := andThen_eq_ok_iff.1 h
  obtain ⟨hpage, -⟩ := check_eq_ok_iff.1 hread
  obtain rfl : s = u := congrArg Prod.snd hfind
  exact ⟨ds, hfind, (Except.ok.inj hpage).symm⟩

/-- **Projections of documents over one new table share its names and nothing else.** The table has the names that
the keys of all documents resolve to, each once and in the order in which they appear first. Each projection
gives and shows what the projection of its document over a table of its own does, in the order of the shared
table, and so it does after documents that come later, whose projections go on where the table stands. A
page of a repository is made in this way of the documents that the store has found. -/
theorem page_shares_names (ts : NameTables) (strategy : NamingStrategy) (ds later : List Document) :
    let fresh := ts.create []
    let built := Projection.ofDocuments fresh.1 fresh.2 strategy ds
    let grown := Projection.ofDocuments built.1 fresh.2 strategy later
    (built.1.names fresh.2 = ((ds.flatMap Fields.keys).map strategy.fieldName).eraseDups ∧
      (built.1.names fresh.2).Nodup) ∧
    List.Forall₂ (fun p d => p.table = fresh.2 ∧ p.AsAlone built.1 d strategy ∧ p.AsAlone grown.1 d strategy)
      built.2 ds ∧
    Projection.ofDocuments fresh.1 fresh.2 strategy (ds ++ later) = (grown.1, built.2 ++ grown.2) ∧
    ∀ {α : Type} (r : Repository α) (q : ProjectionQuery) (s t : Server) (page : Page),
      r.project q s = (.ok page, t) → ∃ found,
        Server.find r.binding.collection (q.storeQuery (q.request.window (r.documents s).length)) s = (.ok found, s) ∧
        (page.tables, page.result) =
          Projection.ofDocuments (NameTables.empty.create []).1 (NameTables.empty.create []).2 q.strategy found := by
  have hhas := has_create ts []
  have hnames := names_create ts []
  have hnodup : ((ts.create []).1.names (ts.create []).2).Nodup := by
    rw [hnames]
    exact List.nodup_nil
  have hgrows := (Projection.ofDocuments_holds (s := strategy) hhas ds).1
  have hlater := (Projection.ofDocuments_holds (s := strategy) (hgrows.has hhas) later).1
  have hmet := Projection.names_ofDocuments (s := strategy) hhas (hnames.trans List.eraseDups_nil.symm) ds
  refine ⟨⟨?_, hgrows.nodup hnodup⟩, ?_, Projection.ofDocuments_append _ _ _ ds later, ?_⟩
  · rw [List.map_flatMap]
    exact hmet
  · exact List.Forall₂.mp (fun p d now after => ⟨now.1, now.2, after.2⟩)
      (Projection.ofDocuments_asAlone hhas hnodup ds (.refl _ _)) (Projection.ofDocuments_asAlone hhas hnodup ds hlater)
  · intro α r q s t page h
    obtain ⟨found, hfind, rfl⟩ := project_documents h
    exact ⟨found, hfind, rfl⟩

/-- A page of three slots with different fields. The second one has two keys for one name, behind a name that
the table gets only with it, and is shown in the order of the table. -/
theorem page_shares_names_of_three_slots :
    let first : Document := [("_id", .string "a"), ("Name", .string "x"), ("URLPath", .string "/")]
    let second : Document := [("_id", .string "b"), ("extra", .null), ("name", .int32 1), ("Name", .string "y")]
    let third : Document := [("_id", .string "c"), ("urlPath", .bool true)]
    let s := [first, second, third].foldl (fun s d => (Server.insert "Slot" d s).2) .empty
    let q := ["Name", "name", "URLPath", "urlPath", "extra"].foldl (fun q f => q.select f true)
      { ProjectionQuery.empty with strategy := .camelCase }
    ∃ page, slots.project q s = (.ok page, s) ∧ page.tables.names 0 = ["id", "name", "urlPath", "extra"] ∧
      ∃ a b c, page.result = [a, b, c] ∧
        b.items page.tables = [("id", .string "b"), ("name", .string "y"), ("extra", .null)] ∧
        (Projection.alone second .camelCase).2.items (Projection.alone second .camelCase).1 =
          [("id", .string "b"), ("extra", .null), ("name", .string "y")] := by
  intro first second third s q
  obtain ⟨page, hpage⟩ : ∃ page, slots.project q s = (.ok page, s) := ⟨_, by rfl⟩
  have hfind : Server.find slots.binding.collection (q.storeQuery (q.request.window (slots.documents s).length)) s =
      (.ok [first, second, third], s) := by
    unfold s first second third
    rfl
  obtain ⟨-, -, -, hpages⟩ := page_shares_names .empty q.strategy [] []
  obtain ⟨found, hfound, hmade⟩ := hpages slots q s s page hpage
  obtain ⟨⟨hnames, -⟩, hprojections, -⟩ := page_shares_names .empty q.strategy found []
  have hstrategy : q.strategy = .camelCase := by rfl
  rw [← hmade, hstrategy] at hnames hprojections
  obtain rfl : [first, second, third] = found := Except.ok.inj (congrArg Prod.fst (hfind.symm.trans hfound))
  have hnames : page.tables.names 0 = ["id", "name", "urlPath", "extra"] := hnames.trans (by rfl)
  generalize hresult : page.result = ps at hprojections
  obtain _ | ⟨-, _ | ⟨⟨htable, halone, -⟩, _ | ⟨-, _ | _⟩⟩⟩ := hprojections
  have hown : Projection.alone second .camelCase = (⟨[["id", "extra", "name"]]⟩,
      ⟨0, [some (.string "b"), some .null, some (.string "y")], .camelCase⟩) := by rfl
  have hitems := halone.ordered
  rw [htable, hown] at hitems
  refine ⟨page, hpage, hnames, _, _, _, hresult, hitems.trans ?_, by rfl⟩
  rw [show (NameTables.empty.create []).2 = 0 from rfl, hnames]
  rfl

end Docbase.Repository
