/-
The names of databases and containers. A merge of accounts asks for no
database that was not requested and leaves none out, and so it is with the
containers of each database.

What a database is depends on how often it was requested (`Gathers`). The
only request for it is passed on as it is, with its containers one by one as
they were listed; from the second request on its containers are a table by
name, which is held against the greatest number of containers each time. One
request more keeps this (`Gathers.merge`), so it holds of every database at
the end (`gathers_mergeAll`).
-/
import Depot.Proofs.Cosmos.Merging

namespace Depot.Cosmos

-- ======================================================== one database

/-- The names of a database's containers, as they are listed. -/
def Database.listed (d : Database) : List String := d.containers.map Container.name

/-- What the requests for a database come to: the only one of them as it is,
or the containers of all of them by name. -/
inductive Gathers (asked : List Database) (d : Database) : Prop where
  | once (only : asked = [d])
  | often (several : 1 < asked.length)
      (names : d.listed = (asked.flatMap Database.listed).eraseDups)
      (fits : d.containers.length ≤ maxContainers)

namespace Gathers

variable {asked : List Database} {d : Database}

/-- However often a database was requested, its containers are told apart as
those of the requests are. -/
theorem names_eq (h : Gathers asked d) :
    d.listed.eraseDups = (asked.flatMap Database.listed).eraseDups := by
  cases h with
  | once only => rw [only, List.flatMap_singleton]
  | often _ names _ => rw [names, eraseDups_of_nodup (nodup_eraseDups _)]

/-- A database that gathers requests lists a container exactly if one of
them does. -/
theorem mem_listed_iff (h : Gathers asked d) {container : String} :
    container ∈ d.listed ↔ ∃ r ∈ asked, container ∈ r.listed := by
  rw [← List.mem_eraseDups, h.names_eq, List.mem_eraseDups, List.mem_flatMap]

/-- What several requests list together has no name twice and fits the
limit. -/
theorem nodup_listed (h : Gathers asked d) (several : 1 < asked.length) :
    d.listed.Nodup ∧ d.containers.length ≤ maxContainers := by
  cases h with
  | once only =>
      rw [only] at several
      exact absurd several (Nat.lt_irrefl 1)
  | often _ names fits =>
      rw [names]
      exact ⟨nodup_eraseDups _, fits⟩

end Gathers

/-- Merged containers have the names of both sides, once each, in the order
they came. -/
theorem names_mergeContainers {existing incoming merged : List Container}
    (h : mergeContainers existing incoming = .ok merged) :
    merged.map Container.name
      = (existing.map Container.name ++ incoming.map Container.name).eraseDups := by
  rw [names_mergeAll Container.keepsName (nodup_lastOfEachName existing) (mergeContainers_ok h).1,
    names_lastOfEachName, eraseDups_eraseDups_append]

/-- One request more for a database. -/
theorem Gathers.merge {asked : List Database} {old new m : Database} (h : Gathers asked old)
    (hm : Database.merge old new = .ok m) : Gathers (asked ++ [new]) m := by
  obtain ⟨-, hcontainers⟩ := Database.merge_ok hm
  have hsome : 0 < asked.length := by
    cases h with
    | once only => simp [only]
    | often several _ _ => omega
  refine .often (by simpa using hsome) ?_ (mergeContainers_ok hcontainers).2
  calc m.listed = (old.listed ++ new.listed).eraseDups := names_mergeContainers hcontainers
    _ = (old.listed.eraseDups ++ new.listed).eraseDups := (eraseDups_eraseDups_append _ _).symm
    _ = ((asked.flatMap Database.listed).eraseDups ++ new.listed).eraseDups := by rw [h.names_eq]
    _ = ((asked ++ [new]).flatMap Database.listed).eraseDups := by
      rw [eraseDups_eraseDups_append, List.flatMap_append, List.flatMap_singleton]

-- ======================================================= all databases

/-- Every database comes to what the requests for it come to. -/
theorem gathers_mergeAll {requests databases : List Database}
    (hok : mergeAll Database.name Database.merge requests [] = .ok databases) :
    ∀ d ∈ databases, Gathers (sameName Database.name requests d.name) d :=
  forall_mergeAll_sameName Database.keepsName (fun _ => .once rfl) (fun _ _ _ _ h hm => h.merge hm)
    hok

/-- The names of merged databases and containers are those that were
requested. Databases have different names, in the order in which these were
first requested, and are not too many; a database that was requested again
has containers of different names, and not too many. -/
theorem names_are_requested {accounts : List Account} {databases : List Database}
    (hok : mergeDatabases accounts = .ok (some databases)) :
    databases.map Database.name = ((requested accounts).map Database.name).eraseDups
    ∧ (databases.map Database.name).Nodup
    ∧ databases.length ≤ maxDatabases
    ∧ (∀ database container,
        (∃ d ∈ databases, d.name = database ∧ container ∈ d.listed)
          ↔ ∃ r ∈ requested accounts, r.name = database ∧ container ∈ r.listed)
    ∧ ∀ d ∈ databases, 1 < (sameName Database.name (requested accounts) d.name).length →
        d.listed.Nodup ∧ d.containers.length ≤ maxContainers := by
  obtain ⟨hmerged, hfits⟩ := mergeDatabases_ok hok
  rw [Option.getD_some] at hmerged hfits
  have hgathers := gathers_mergeAll hmerged
  have hnames : databases.map Database.name
      = ((requested accounts).map Database.name).eraseDups :=
    names_mergeAll Database.keepsName (by simp) hmerged
  refine ⟨hnames, nodup_mergeAll Database.keepsName (by simp) hmerged, hfits,
    fun database container => ⟨?_, ?_⟩, fun d hd => (hgathers d hd).nodup_listed⟩
  · intro ⟨d, hd, hname, hcontainer⟩
    obtain ⟨r, hr, hlisted⟩ := (hgathers d hd).mem_listed_iff.1 hcontainer
    obtain ⟨hrequested, hsame⟩ := mem_sameName.1 hr
    exact ⟨r, hrequested, hsame.trans hname, hlisted⟩
  · intro ⟨r, hr, hname, hlisted⟩
    have hthere : r.name ∈ databases.map Database.name := by
      rw [hnames, List.mem_eraseDups]
      exact List.mem_map_of_mem hr
    obtain ⟨d, hd, hsame⟩ := List.mem_map.1 hthere
    refine ⟨d, hd, hsame.trans hname, (hgathers d hd).mem_listed_iff.2 ⟨r, ?_, hlisted⟩⟩
    exact mem_sameName.2 ⟨hr, hsame.symm⟩

/-- Accounts that ask for one database together and for another one once;
each lists a container twice. -/
def scatteredRequests : List Account :=
  [{}, { databases := some [⟨"app", [⟨"users", "/id", none, none, none⟩,
      ⟨"users", "/id", none, none, none⟩]⟩] },
    { databases := some [⟨"audit", [⟨"days", "/day", none, none, none⟩,
      ⟨"days", "/day", none, none, none⟩]⟩, ⟨"app", [⟨"orders", "/id", none, none, none⟩]⟩] }]

/-- The database that was requested again has each container once; the other
one is passed on as it is. -/
theorem scattered_names_are_requested :
    ∃ app audit, mergeDatabases scatteredRequests = .ok (some [app, audit])
      ∧ 1 < (sameName Database.name (requested scatteredRequests) app.name).length
      ∧ [app, audit].map Database.name
        = ((requested scatteredRequests).map Database.name).eraseDups
      ∧ (app.listed = ["users", "orders"] ∧ app.listed.Nodup ∧ app.containers.length ≤ maxContainers)
      ∧ audit.listed = ["days", "days"] := by
  have hok : mergeDatabases scatteredRequests = .ok (some [_, _]) := rfl
  obtain ⟨hnames, -, -, -, hagain⟩ := names_are_requested hok
  refine ⟨_, _, hok, by decide, ?_⟩
  exact ⟨hnames, ⟨rfl, hagain _ List.mem_cons_self (by decide)⟩, rfl⟩

end Depot.Cosmos
