import DevMgr.MiscUtils
/-!
# SqlWrapper — the rows of a query, under both data bases

`FetchRow` is compiled for PostgreSQL or for SQLite: a row number with a copy of the row's cells, or an offset into one
array that begins with the names of the columns.
-/
namespace DevMgr

/-- A `char *`, with the string that it points to. -/
abbrev SqlCell := Option (List BYTE)

abbrev SqlRow := List SqlCell

/-- The result of a query; a cell without a value is `NULL`. -/
structure SqlTable where
  colNames : List (List BYTE)
  rows : List SqlRow
  width : ∀ row ∈ rows, row.length = colNames.length

/-- An empty string for `NULL`. -/
def pqGetvalue (res : SqlTable) (row col : Nat) : SqlCell :=
  ((res.rows[row]?).bind fun cells => cells[col]?).map fun cell => cell.getD []

/-- The names of the columns, and behind them the rows. -/
def sqlite3GetTable (res : SqlTable) : List SqlCell := res.colNames.map some ++ res.rows.flatten

structure PgsqlRes where
  nRowCnt : Nat
  nColCnt : Nat
  nCurRow : Nat
  pFields : SqlRow
  res : SqlTable

structure SqliteRes where
  nRowCnt : Nat
  nColCnt : Nat
  nCurRow : Nat
  nCurIdx : Nat
  ppRows : List SqlCell

namespace PgsqlRes

def beginGetTable (res : SqlTable) : PgsqlRes :=
  ⟨res.rows.length, res.colNames.length, 0, List.replicate res.colNames.length none, res⟩

/-- The row points to `pFields`, so it is this one until the next call. -/
def fetchRow (pRes : PgsqlRes) : Option SqlRow × PgsqlRes :=
  if pRes.nCurRow ≥ pRes.nRowCnt then (none, pRes)
  else
    let pFields := (List.range pRes.nColCnt).map (pqGetvalue pRes.res pRes.nCurRow)
    (some pFields, { pRes with pFields := pFields, nCurRow := pRes.nCurRow + 1 })

end PgsqlRes

namespace SqliteRes

def beginGetTable (res : SqlTable) : SqliteRes :=
  ⟨res.rows.length, res.colNames.length, 0, 0, sqlite3GetTable res⟩

/-- The row begins at `nCurIdx`. -/
def fetchRow (pRes : SqliteRes) : Option SqlRow × SqliteRes :=
  if pRes.nCurRow ≥ pRes.nRowCnt then (none, pRes)
  else
    let nCurIdx := pRes.nCurIdx + pRes.nColCnt
    (some ((pRes.ppRows.drop nCurIdx).take pRes.nColCnt),
      { pRes with nCurRow := pRes.nCurRow + 1, nCurIdx := nCurIdx })

end SqliteRes

namespace SqlWrapper

/-- What the call after `k` others returns. -/
def fetched {ρ : Type} (fetchRow : ρ → Option SqlRow × ρ) : ρ → Nat → Option SqlRow
  | hRes, 0 => (fetchRow hRes).1
  | hRes, k + 1 => fetched fetchRow (fetchRow hRes).2 k

/-- The loop of `ProbeCmds`: the rows that it gives to `ProcessCmd`, if it comes to an end within as many calls. -/
def probeCmds {ρ : Type} (fetchRow : ρ → Option SqlRow × ρ) : Nat → ρ → Option (List SqlRow)
  | 0, _ => none
  | fuel + 1, hRes => match fetchRow hRes with
    | (none, _) => some []
    | (some sqlRow, hRes) => (probeCmds fetchRow fuel hRes).map (sqlRow :: ·)

/-- Both data bases give each row once and in order, with the same cells, and then `NULL` for ever; so both have
`ProcessCmd` called with the same rows. -/
structure Agrees (res : SqlTable) : Prop where
  same : ∀ k, fetched PgsqlRes.fetchRow (.beginGetTable res) k = fetched SqliteRes.fetchRow (.beginGetTable res) k
  rows : ∀ k, fetched SqliteRes.fetchRow (.beginGetTable res) k = res.rows[k]?
  given : ∀ fuel, res.rows.length < fuel →
    probeCmds PgsqlRes.fetchRow fuel (.beginGetTable res) = some res.rows ∧
      probeCmds SqliteRes.fetchRow fuel (.beginGetTable res) = some res.rows

/-! ## A cursor over the rows of a list -/

section
variable {ρ : Type} {fetchRow : ρ → Option SqlRow × ρ}

/-- `At k hRes` are the cursors that have given `k` of the rows: they give the next one, or nothing more. -/
structure Walks (fetchRow : ρ → Option SqlRow × ρ) (rows : List SqlRow) (At : Nat → ρ → Prop) : Prop where
  next : ∀ k hRes row, At k hRes → rows[k]? = some row →
    (fetchRow hRes).1 = some row ∧ At (k + 1) (fetchRow hRes).2
  stop : ∀ k hRes, At k hRes → rows[k]? = none → fetchRow hRes = (none, hRes)

theorem Walks.fetched {rows : List SqlRow} {At : Nat → ρ → Prop} (h : Walks fetchRow rows At) :
    ∀ (j : Nat) {k : Nat} {hRes : ρ}, At k hRes → fetched fetchRow hRes j = rows[k + j]?
  | 0, k, hRes, hk => by
    rw [SqlWrapper.fetched, Nat.add_zero]
    cases hrow : rows[k]? with
    | none => rw [h.stop k hRes hk hrow]
    | some row => exact (h.next k hRes row hk hrow).1
  | j + 1, k, hRes, hk => by
    rw [SqlWrapper.fetched]
    cases hrow : rows[k]? with
    | none =>
      rw [h.stop k hRes hk hrow, h.fetched j hk]
      have hlen := List.getElem?_eq_none_iff.1 hrow
      rw [List.getElem?_eq_none (by omega), List.getElem?_eq_none (by omega)]
    | some row => rw [h.fetched j (h.next k hRes row hk hrow).2, Nat.add_right_comm, Nat.add_assoc]

theorem Walks.probeCmds {rows : List SqlRow} {At : Nat → ρ → Prop} (h : Walks fetchRow rows At) :
    ∀ (fuel : Nat) {k : Nat} {hRes : ρ}, At k hRes → rows.length - k < fuel →
      probeCmds fetchRow fuel hRes = some (rows.drop k)
  | 0, k, hRes, _, hf => absurd hf (Nat.not_lt_zero _)
  | fuel + 1, k, hRes, hk, hf => by
    rw [SqlWrapper.probeCmds]
    cases hrow : rows[k]? with
    | none => rw [h.stop k hRes hk hrow, List.drop_eq_nil_of_le (List.getElem?_eq_none_iff.1 hrow)]
    | some row =>
      obtain ⟨hfst, hnext⟩ := h.next k hRes row hk hrow
      obtain ⟨hlt, hget⟩ := List.getElem?_eq_some_iff.1 hrow
      have hrest := h.probeCmds fuel hnext (by omega)
      rw [← Prod.mk.eta (p := fetchRow hRes), hfst]
      dsimp only
      rw [hrest, Option.map_some, List.drop_eq_getElem_cons hlt, hget]

end

/-! ## The two cursors -/

/-- The rows as PostgreSQL gives them. -/
def texts (rows : List SqlRow) : List SqlRow := rows.map fun row => row.map fun cell => some (cell.getD [])

theorem take_drop_flatten {α : Type} {w : Nat} : ∀ {rows : List (List α)} {k : Nat} {row : List α},
    (∀ row ∈ rows, row.length = w) → rows[k]? = some row → (rows.flatten.drop (k * w)).take w = row
  | [], k, row, _, hk => by cases hk
  | r :: rows, 0, row, hw, hk => by
    cases hk
    rw [Nat.zero_mul, List.drop_zero, List.flatten_cons, List.take_append_of_le_length, List.take_of_length_le]
    · exact Nat.le_of_eq (hw _ List.mem_cons_self)
    · exact Nat.le_of_eq (hw _ List.mem_cons_self).symm
  | r :: rows, k + 1, row, hw, hk => by
    have hr := hw r List.mem_cons_self
    rw [List.flatten_cons, Nat.add_mul, Nat.one_mul, Nat.add_comm, List.drop_append, hr, Nat.add_sub_cancel_left,
      List.drop_eq_nil_of_le (by omega), List.nil_append]
    exact take_drop_flatten (fun row h => hw row (List.mem_cons_of_mem _ h)) hk

theorem pqGetvalue_row {res : SqlTable} {k : Nat} {row : SqlRow} (h : res.rows[k]? = some row) :
    (List.range res.colNames.length).map (pqGetvalue res k) = row.map fun cell => some (cell.getD []) := by
  have hw := res.width row (List.mem_of_getElem? h)
  apply List.ext_getElem?
  intro i
  rw [List.getElem?_map, List.getElem?_map]
  by_cases hi : i < res.colNames.length
  · rw [List.getElem?_range hi, List.getElem?_eq_getElem (hw ▸ hi), Option.map_some, Option.map_some]
    unfold pqGetvalue
    rw [h, Option.bind_some, List.getElem?_eq_getElem (hw ▸ hi), Option.map_some]
  · rw [List.getElem?_eq_none (by rw [List.length_range]; omega), List.getElem?_eq_none (by omega)]
    rfl

theorem pgsql_walks (res : SqlTable) : Walks PgsqlRes.fetchRow (texts res.rows) fun k pRes =>
    pRes.nCurRow = k ∧ pRes.nRowCnt = res.rows.length ∧ pRes.nColCnt = res.colNames.length ∧ pRes.res = res where
  next := by
    rintro k pRes row ⟨rfl, hn, hc, rfl⟩ hrow
    obtain ⟨cells, hcells, rfl⟩ : ∃ cells, pRes.res.rows[pRes.nCurRow]? = some cells ∧
        cells.map (fun cell => some (cell.getD [])) = row := by
      rwa [texts, List.getElem?_map, Option.map_eq_some_iff] at hrow
    have hlt := (List.getElem?_eq_some_iff.1 hcells).1
    rw [PgsqlRes.fetchRow, if_neg (by omega)]
    exact ⟨by rw [hc, pqGetvalue_row hcells], rfl, hn, hc, rfl⟩
  stop := by
    rintro k pRes ⟨rfl, hn, -, -⟩ hrow
    rw [List.getElem?_eq_none_iff, texts, List.length_map] at hrow
    rw [PgsqlRes.fetchRow, if_pos (by omega)]

/-- The offset stands at the row given last, so that the next one is behind it. -/
theorem sqlite_walks (res : SqlTable) : Walks SqliteRes.fetchRow res.rows fun k pRes =>
    pRes.nCurRow = k ∧ pRes.nCurIdx = k * res.colNames.length ∧ pRes.nRowCnt = res.rows.length ∧
      pRes.nColCnt = res.colNames.length ∧ pRes.ppRows = sqlite3GetTable res where
  next := by
    rintro k pRes row ⟨rfl, hi, hn, hc, hp⟩ hrow
    have hlt := (List.getElem?_eq_some_iff.1 hrow).1
    have hcells : ((sqlite3GetTable res).drop (pRes.nCurIdx + pRes.nColCnt)).take pRes.nColCnt = row := by
      rw [sqlite3GetTable, hi, hc, Nat.add_comm, ← List.drop_drop,
        List.drop_left' (by rw [List.length_map])]
      exact take_drop_flatten res.width hrow
    rw [SqliteRes.fetchRow, if_neg (by omega)]
    refine ⟨congrArg some (by rw [hp, hcells]), rfl, ?_, hn, hc, hp⟩
    rw [Nat.add_mul, Nat.one_mul, ← hi, ← hc]
  stop := by
    rintro k pRes ⟨rfl, -, hn, -⟩ hrow
    rw [List.getElem?_eq_none_iff] at hrow
    rw [SqliteRes.fetchRow, if_pos (by omega)]

theorem map_eq_self {α : Type} {f : α → α} {l : List α} : l.map f = l ↔ ∀ a ∈ l, f a = a := by
  have h := List.map_inj_left (l := l) (f := f) (g := id)
  rwa [List.map_id] at h

/-- The rows are the same when there is no `NULL` in them. -/
theorem texts_eq_iff {rows : List SqlRow} : texts rows = rows ↔ ∀ row ∈ rows, none ∉ row := by
  have hcell : ∀ cell : SqlCell, some (cell.getD []) = cell ↔ cell ≠ none := by
    intro cell
    cases cell <;> simp
  have hrow : ∀ row : SqlRow, row.map (fun cell => some (cell.getD [])) = row ↔ none ∉ row := by
    intro row
    rw [map_eq_self]
    constructor
    · exact fun h hnone => (hcell none).1 (h none hnone) rfl
    · exact fun h cell hmem => (hcell cell).2 fun he => h (he ▸ hmem)
  rw [texts, map_eq_self]
  exact forall₂_congr fun row _ => hrow row

/-- **The two data bases agree exactly on the results without a `NULL`.** -/
theorem fetchRow_agrees_iff (res : SqlTable) : Agrees res ↔ ∀ row ∈ res.rows, none ∉ row := by
  have hpg : ∀ k, fetched PgsqlRes.fetchRow (.beginGetTable res) k = (texts res.rows)[k]? := by
    intro k
    rw [(pgsql_walks res).fetched k (k := 0) ⟨rfl, rfl, rfl, rfl⟩, Nat.zero_add]
  have hlite : ∀ k, fetched SqliteRes.fetchRow (.beginGetTable res) k = res.rows[k]? := by
    intro k
    rw [(sqlite_walks res).fetched k (k := 0) ⟨rfl, (Nat.zero_mul _).symm, rfl, rfl, rfl⟩, Nat.zero_add]
  rw [← texts_eq_iff]
  constructor
  · intro h
    apply List.ext_getElem?
    intro k
    rw [← hpg, h.same, hlite]
  · intro h
    refine ⟨fun k => ?_, hlite, fun fuel hf => ⟨?_, ?_⟩⟩
    · rw [hpg, hlite, h]
    · have hwalks := pgsql_walks res
      rw [h] at hwalks
      exact hwalks.probeCmds fuel (k := 0) ⟨rfl, rfl, rfl, rfl⟩ hf
    · exact (sqlite_walks res).probeCmds fuel (k := 0)
        ⟨rfl, (Nat.zero_mul _).symm, rfl, rfl, rfl⟩ hf

/-- A request whose arguments are `NULL`. -/
def noArgs : SqlTable where
  colNames := [ascii "id", ascii "cmd_id", ascii "tablet_serial", ascii "args"]
  rows := [[some (ascii "7"), some (ascii "5"), some (ascii "8A9B"), none]]
  width := by decide

/-- **A `NULL` is an empty string to PostgreSQL, and no string at all to SQLite.** -/
theorem noArgs_not_agrees : ¬ Agrees noArgs := fun h => absurd (h.same 0) (by decide)

end SqlWrapper

end DevMgr
