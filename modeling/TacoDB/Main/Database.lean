import TacoDB.Catalog.Reached

/-!
# The database

`dbmain/Database.cpp`: the global objects are initialized once, and after that databases are
opened and closed. An `open` creates a catalog cache and initializes it, which can fail; then
the database is not open but holds the catalog as far as it has come. `close` deletes the
catalog in either case, the next `open` only that of a database that is open.
-/

namespace Taco

open Run CatCache InitDataFileReader

/-- The members of `Database` and the flag of `init_global`. `lost` are the catalogs that are
not deleted and that no pointer refers to any more. -/
structure Database where
  initGlobalCalled : Bool
  initialized : Bool
  dbPath : ByteString
  catcache : Option CatCache
  lost : List CatCache

namespace Database

def atStart : Database :=
  { initGlobalCalled := false, initialized := false, dbPath := [], catcache := none, lost := [] }

/-- An assignment to `m_catcache`, which does not delete what it pointed to. -/
def setCatcache (catcache : Option CatCache) (db : Database) : Database :=
  { db with catcache, lost := db.lost ++ db.catcache.toList }

def setDbPath (dbPath : ByteString) (db : Database) : Database := { db with dbPath }

def setInitialized (db : Database) : Database := { db with initialized := true }

def onCatcache {α : Type} (x : Eff Failure CatCache α) : Eff Failure Database α := fun db =>
  match db.catcache with
  | none => (.error (.undefined "null catalog"), db)
  | some st => ((x st).1, { db with catcache := some (x st).2 })

/-- `Database::init_global`, without the tables that are part of the model as they are. -/
def initGlobal : Eff Failure Database Unit := do
  let db ← Eff.getState
  if db.initGlobalCalled then
    Eff.fail (.tdbError .kFatal
      "taco::Database::init_global() must not be called more than once")
  else
    Eff.modifyState fun db => { db with initGlobalCalled := true }

def close : Eff Failure Database Unit :=
  Eff.modifyState fun db => { db with catcache := none, initialized := false }

/-- The part of `Database::open` that closes a database that is open. -/
def closeOpened : Eff Failure Database Unit := do
  let db ← Eff.getState
  if db.initialized then close else pure ()

/-- The part of `Database::open` that makes the catalog. `noCatcache` is `g_test_no_catcache`, and
`initData` what the init data file contains. -/
def openCatcache (num : Numbers) (builtin : BuiltinTable) (n lineno tabid : Nat)
    (noCatcache create : Bool) (initData : ByteString) : Eff Failure Database Unit :=
  if noCatcache then
    Eff.modifyState (setCatcache none)
  else do
    Eff.modifyState (setCatcache (some .new))
    if create then
      onCatcache (initializeFromInitData num builtin n lineno tabid (.ofText initData))
    else
      Eff.fail (.tdbError .kError
        "voatile catlog cannot be initialized from an existing data directory")

/-- `Database::open`. -/
def dbOpen (num : Numbers) (builtin : BuiltinTable) (n lineno tabid : Nat) (path : ByteString)
    (noCatcache create : Bool) (initData : ByteString) : Eff Failure Database Unit := do
  let db ← Eff.getState
  if !db.initGlobalCalled then
    Eff.fail (.tdbError .kFatal
      "taco::Database::init_global() must be called before opening a database")
  else do
    closeOpened
    Eff.modifyState (setDbPath path)
    openCatcache num builtin n lineno tabid noCatcache create initData
    Eff.modifyState setInitialized

end Database

inductive DbCall where
  | initGlobal
  | dbOpen (n lineno tabid : Nat) (path : ByteString) (noCatcache create : Bool)
      (initData : ByteString)
  | close
  | catalog (n : Nat) (call : CatCall)

section Calls

variable (num : Numbers) (builtin : BuiltinTable)

def DbCall.exec [StrJoin] : DbCall → Eff Failure Database Unit
  | .initGlobal => Database.initGlobal
  | .dbOpen n lineno tabid path noCatcache create initData =>
      Database.dbOpen num builtin n lineno tabid path noCatcache create initData
  | .close => Database.close
  | .catalog n call => Database.onCatcache (call.exec builtin (n + 2))

def DbCall.step [StrJoin] (db : Database) (call : DbCall) : Database := (call.exec num builtin db).2

end Calls

namespace Database

variable {num : Numbers} {builtin : BuiltinTable} {db : Database}

/-- A database that is not open but holds a catalog, as an `open` that fails leaves it. -/
def Broken (db : Database) : Prop := db.initialized = false ∧ db.catcache.isSome = true

def closed (db : Database) : Database := if db.initialized then (close db).2 else db

def prepared (path : ByteString) (db : Database) : Database := setDbPath path db.closed

/-- The catalog that an `open` makes, if any, and whether it can be used. -/
theorem openCatcache_cases (num : Numbers) (builtin : BuiltinTable) (n lineno tabid : Nat)
    (noCatcache create : Bool) (initData : ByteString) (db : Database) :
    (openCatcache num builtin n lineno tabid noCatcache create initData db =
      (.ok (), setCatcache none db)) ∨
    (∃ st, create = true ∧
      initializeFromInitData num builtin n lineno tabid (.ofText initData) new = (.ok (), st) ∧
      openCatcache num builtin n lineno tabid noCatcache create initData db =
        (.ok (), setCatcache (some st) db)) ∨
    (∃ e st, openCatcache num builtin n lineno tabid noCatcache create initData db =
      (.error e, setCatcache (some st) db)) := by
  unfold openCatcache
  cases noCatcache with
  | true => exact .inl rfl
  | false =>
      rw [if_neg Bool.false_ne_true, Eff.bind_of_ok (Eff.modifyState_apply _ _)]
      cases create with
      | false => exact .inr (.inr ⟨_, new, rfl⟩)
      | true =>
          have hrun : onCatcache (initializeFromInitData num builtin n lineno tabid
              (.ofText initData)) (setCatcache (some new) db) =
              ((initializeFromInitData num builtin n lineno tabid (.ofText initData) new).1,
                setCatcache (some (initializeFromInitData num builtin n lineno tabid
                  (.ofText initData) new).2) db) := rfl
          rw [if_pos rfl, hrun]
          rcases initializeFromInitData num builtin n lineno tabid (.ofText initData) new
            with ⟨e | u, st⟩
          · exact .inr (.inr ⟨e, st, rfl⟩)
          · exact .inr (.inl ⟨st, rfl, rfl, rfl⟩)

theorem dbOpen_eq (num : Numbers) (builtin : BuiltinTable) (n lineno tabid : Nat)
    (path : ByteString) (noCatcache create : Bool) (initData : ByteString) {db : Database}
    (h : db.initGlobalCalled = true) :
    dbOpen num builtin n lineno tabid path noCatcache create initData db =
      (openCatcache num builtin n lineno tabid noCatcache create initData >>= fun _ =>
        Eff.modifyState setInitialized) (prepared path db) := by
  have hclose : closeOpened db = (.ok (), db.closed) := by
    unfold closeOpened closed
    rw [Eff.bind_of_ok (Eff.getState_apply db)]
    split <;> rfl
  unfold dbOpen
  rw [Eff.bind_of_ok (Eff.getState_apply db), h, Bool.not_true, if_neg Bool.false_ne_true,
    Eff.bind_of_ok hclose]
  rfl

theorem dbOpen_cases (num : Numbers) (builtin : BuiltinTable) (n lineno tabid : Nat)
    (path : ByteString) (noCatcache create : Bool) (initData : ByteString) (db : Database) :
    (db.initGlobalCalled = false ∧
      (dbOpen num builtin n lineno tabid path noCatcache create initData db).2 = db) ∨
    (∃ catcache, db.initGlobalCalled = true ∧
      (∀ st, catcache = some st → create = true ∧
        initializeFromInitData num builtin n lineno tabid (.ofText initData) new = (.ok (), st)) ∧
      (dbOpen num builtin n lineno tabid path noCatcache create initData db).2 =
        setInitialized (setCatcache catcache (prepared path db))) ∨
    (∃ st, db.initGlobalCalled = true ∧
      (dbOpen num builtin n lineno tabid path noCatcache create initData db).2 =
        setCatcache (some st) (prepared path db)) := by
  cases hglobal : db.initGlobalCalled with
  | false =>
      unfold dbOpen
      rw [Eff.bind_of_ok (Eff.getState_apply db), hglobal]
      exact .inl ⟨rfl, rfl⟩
  | true =>
      rw [dbOpen_eq num builtin n lineno tabid path noCatcache create initData hglobal]
      rcases openCatcache_cases num builtin n lineno tabid noCatcache create initData
        (prepared path db) with hrun | ⟨st, hcreate, hinit, hrun⟩ | ⟨e, st, hrun⟩
      · rw [Eff.bind_of_ok hrun]
        refine .inr (.inl ⟨none, rfl, fun st hst => ?_, rfl⟩)
        cases hst
      · rw [Eff.bind_of_ok hrun]
        refine .inr (.inl ⟨some st, rfl, fun st' hst => ?_, rfl⟩)
        cases hst
        exact ⟨hcreate, hinit⟩
      · rw [Eff.bind_of_error hrun]
        exact .inr (.inr ⟨st, rfl, rfl⟩)

theorem initGlobal_state (db : Database) :
    (initGlobal db).2 = { db with initGlobalCalled := true } := by
  unfold initGlobal
  rw [Eff.bind_of_ok (Eff.getState_apply db)]
  cases hglobal : db.initGlobalCalled with
  | false => rfl
  | true =>
      rw [if_pos rfl, ← hglobal]
      rfl

theorem closed_initialized (db : Database) : db.closed.initialized = false := by
  unfold closed
  split
  · rfl
  · rename_i h
    exact Bool.eq_false_iff.mpr h

end Database

section Run

variable {num : Numbers} {others : BuiltinTable} {db : Database}

def Database.Sound [StrJoin] (num : Numbers) (others : BuiltinTable) (db : Database) : Prop :=
  db.initialized = true → ∀ st, db.catcache = some st → Reached num others st

/-- An `open` that creates a database is given an init data file of the build, and the catalog is
called to look up or to add. -/
def DbCall.Proper (num : Numbers) (others : BuiltinTable) : DbCall → Prop
  | .initGlobal => True
  | .dbOpen _ _ _ _ _ create initData =>
      create = true → StandardData num (findBuiltinFunction num others) initData
  | .close => True
  | .catalog _ call => call.FindsOrAdds

theorem Database.Sound.step [StrJoin] (h : db.Sound num others) {call : DbCall}
    (hcall : call.Proper num others) :
    (call.step num (findBuiltinFunction num others) db).Sound num others := by
  cases call with
  | initGlobal =>
      rw [DbCall.step, DbCall.exec, Database.initGlobal_state]
      exact h
  | dbOpen n lineno tabid path noCatcache create initData =>
      rw [DbCall.step, DbCall.exec]
      rcases Database.dbOpen_cases num (findBuiltinFunction num others) n lineno tabid path
        noCatcache create initData db with ⟨-, hdb⟩ | ⟨catcache, -, hinit, hdb⟩ | ⟨st, -, hdb⟩
      · rw [hdb]
        exact h
      · rw [hdb]
        intro _ st hst
        obtain ⟨hcreate, hrun⟩ := hinit st hst
        exact .initialized (hcall hcreate) hrun
      · rw [hdb]
        intro hopen
        exact absurd (hopen.symm.trans (Database.closed_initialized db)) (by decide)
  | close =>
      intro hopen
      cases hopen
  | catalog n call =>
      rw [DbCall.step, DbCall.exec, Database.onCatcache]
      cases hcat : db.catcache with
      | none => exact h
      | some st =>
          intro hopen st' hst'
          cases hst'
          exact .called (h hopen st hcat) hcall n

/-- In every run of the database, whatever its calls return, the catalog of a database that is open
is a state that initialization and calls of the catalog lead to. -/
theorem run_catalogReached [StrJoin] {calls : List DbCall}
    (hcalls : ∀ call ∈ calls, call.Proper num others)
    (hopen : (run (DbCall.step num (findBuiltinFunction num others)) Database.atStart
      calls).initialized = true) {st : CatCache}
    (hst : (run (DbCall.step num (findBuiltinFunction num others)) Database.atStart
      calls).catcache = some st) : Reached num others st := by
  have hstart : Database.atStart.Sound num others := fun hopen => absurd hopen (by decide)
  exact run_invariant_of_forall (fun _ _ hdb hcall => hdb.step hcall) hstart hcalls hopen st hst

/-- A database that is created, when the initialization of the catalog leads to `st`. -/
theorem run_create [StrJoin] {n lineno tabid : Nat} {text : ByteString} {st : CatCache}
    (h : initializeFromInitData num (findBuiltinFunction num others) n lineno tabid
      (.ofText text) new = (.ok (), st)) :
    run (DbCall.step num (findBuiltinFunction num others)) Database.atStart
        [.initGlobal, .dbOpen n lineno tabid [] false true text] =
      { initGlobalCalled := true, initialized := true, dbPath := [], catcache := some st,
        lost := [] } := by
  have hopen : Database.openCatcache num (findBuiltinFunction num others) n lineno tabid false
      true text { Database.atStart with initGlobalCalled := true } =
      (.ok (),
        Database.setCatcache (some st) { Database.atStart with initGlobalCalled := true }) := by
    unfold Database.openCatcache
    rw [if_neg Bool.false_ne_true, Eff.bind_of_ok (Eff.modifyState_apply _ _), if_pos rfl,
      Database.onCatcache]
    change ((initializeFromInitData num (findBuiltinFunction num others) n lineno tabid
      (.ofText text) new).1,
      { Database.setCatcache (some new) { Database.atStart with initGlobalCalled := true } with
        catcache := some (initializeFromInitData num (findBuiltinFunction num others) n lineno tabid
          (.ofText text) new).2 }) = _
    rw [h]
    rfl
  rw [run_cons, run_cons, DbCall.step, DbCall.step, DbCall.exec, DbCall.exec,
    Database.initGlobal_state, Database.dbOpen_eq num _ n lineno tabid [] false true text rfl]
  change ((Database.openCatcache num (findBuiltinFunction num others) n lineno tabid false true
    text >>= fun _ => Eff.modifyState Database.setInitialized)
      { Database.atStart with initGlobalCalled := true }).2 = _
  rw [Eff.bind_of_ok hopen]
  rfl

section

attribute [local instance] documentedStrJoin

theorem run_catalogReached_sample : Reached documentedNumbers (fun _ => none) sampleState := by
  have hrun := @run_create documentedNumbers (fun _ => none) documentedStrJoin 2 0 0
    sampleContent.initData sampleState sampleState_initialized
  obtain ⟨secs, hsecs, hcomplete, -⟩ := sampleContent_complete
  have hproper : ∀ call ∈ [DbCall.initGlobal, .dbOpen 2 0 0 [] false true sampleContent.initData],
      call.Proper documentedNumbers fun _ => none := by
    intro call hcall
    rcases List.mem_cons.mp hcall with rfl | hcall
    · trivial
    · rw [List.mem_singleton.mp hcall]
      exact fun _ => ⟨secs, hsecs, hcomplete.standard⟩
  exact run_catalogReached hproper (by rw [hrun]) (by rw [hrun])

end

/-- An `open` is not called on what an `open` that failed has left. -/
def DbCall.Careful (db : Database) : DbCall → Prop
  | .initGlobal => True
  | .dbOpen _ _ _ _ _ _ _ => db.initGlobalCalled = true → ¬db.Broken
  | .close => True
  | .catalog _ _ => True

theorem lost_setCatcache_iff (hlost : db.lost = []) (path : ByteString)
    (catcache : Option CatCache) :
    (Database.setCatcache catcache (Database.prepared path db)).lost = [] ↔ ¬db.Broken := by
  have hclosed : (Database.prepared path db).lost = [] := by
    unfold Database.prepared Database.closed
    split <;> exact hlost
  have hcat : (Database.prepared path db).catcache =
      if db.initialized = true then none else db.catcache := by
    unfold Database.prepared Database.closed
    split <;> rfl
  change (Database.prepared path db).lost ++ (Database.prepared path db).catcache.toList = [] ↔ _
  unfold Database.Broken
  rw [hclosed, hcat, List.nil_append]
  cases db.initialized with
  | true => simp
  | false => cases db.catcache <;> simp

theorem step_lost_iff [StrJoin] {builtin : BuiltinTable} (hlost : db.lost = []) (call : DbCall) :
    (DbCall.step num builtin db call).lost = [] ↔ call.Careful db := by
  cases call with
  | initGlobal =>
      rw [DbCall.step, DbCall.exec, Database.initGlobal_state]
      exact iff_of_true hlost trivial
  | dbOpen n lineno tabid path noCatcache create initData =>
      rw [DbCall.step, DbCall.exec, DbCall.Careful]
      rcases Database.dbOpen_cases num builtin n lineno tabid path noCatcache create initData db
        with ⟨hglobal, hdb⟩ | ⟨catcache, hglobal, -, hdb⟩ | ⟨st, hglobal, hdb⟩
      · rw [hdb, hglobal]
        exact iff_of_true hlost fun h => absurd h (by decide)
      · rw [hdb, forall_prop_of_true hglobal]
        exact lost_setCatcache_iff hlost path catcache
      · rw [hdb, forall_prop_of_true hglobal]
        exact lost_setCatcache_iff hlost path (some st)
  | close => exact iff_of_true hlost trivial
  | catalog n call =>
      rw [DbCall.step, DbCall.exec, Database.onCatcache]
      cases db.catcache with
      | none => exact iff_of_true hlost trivial
      | some st => exact iff_of_true hlost trivial

/-- In a run of the database no catalog is lost exactly when no `open` follows one that has failed
without a `close` in between. -/
theorem run_losesNothing_iff [StrJoin] {builtin : BuiltinTable} (calls : List DbCall) :
    Throughout (DbCall.step num builtin) (fun db => db.lost = []) Database.atStart calls ↔
      EachStep (DbCall.step num builtin) DbCall.Careful Database.atStart calls := by
  have hstep : ∀ db call, db.lost = [] →
      ((DbCall.step num builtin db call).lost = [] ↔ DbCall.Careful db call) :=
    fun _ call hlost => step_lost_iff hlost call
  exact throughout_iff_eachStep hstep rfl

end Run

end Taco
