import Mathlib.Data.List.Sort
import OpenvpnControl.Agent.LogTable
import OpenvpnControl.Library.Float64

/-!
# The pages of the log

The panel shows the stored lines of a node in pages, the newest lines first. This file says what the
pages of a node have, one after another, in any run of the passes that fill the table.

## Main definitions

* `LogsQuery`, `LogsPage`, `getOpenvpnLogsForPanel`: a request for a page.
* `logRows`: the rows of a node that match, the newest first.
* `Listing`: what the rows of a node are after a run.

## Main results

* `pages_eq`: the pages are the rows, one after another.
* `log_pages`: which lines are on the pages of a node in any run.
-/

namespace OpenvpnControl.Panel

open Agent.LogLines (OpenvpnServerLog)
open Agent.LogTable (LogWorld LogRequest LogRun LogInv SyncResult Statement Answered
  answeredTexts HasRow lineDate
  cutoff Reports Stored)

/-! ### Requests -/

structure LogsQuery where
  page : ℤ
  pageSize : ℤ
  q : String

/-- A row of an answer. -/
structure LogEntry where
  id : String
  occurredAt : ℤ
  occurredRaw : Option String
  event : String
  username : Option String
  ipAddress : Option String
  deriving DecidableEq

/-- The body of an answer. -/
structure LogsPage where
  page : ℤ
  pageSize : ℤ
  total : ℤ
  totalPages : ℤ
  rows : List LogEntry

/-- The order of the texts of a database. -/
structure Collation where
  le : String → String → Bool
  total : ∀ a b, le a b = true ∨ le b a = true
  trans : ∀ {a b c}, le a b = true → le b c = true → le a c = true

/-- The primary key of a row, the order of the keys, the operator `ILIKE`, and the errors of the
statements: the node, the number of the rows, and the rows. -/
structure LogsEnv where
  id : OpenvpnServerLog → String
  collation : Collation
  ilike : String → String → Bool
  nodeError : Option String
  countError : Option String
  rowsError : Option String

variable (env : LogsEnv)

/-- `ORDER BY "occurredAt" DESC, id DESC`. -/
def NewestFirst (a b : OpenvpnServerLog) : Prop :=
  b.occurredAt < a.occurredAt ∨ a.occurredAt = b.occurredAt ∧
    env.collation.le (env.id b) (env.id a) = true

instance : DecidableRel (NewestFirst env) := fun _ _ => inferInstanceAs (Decidable (_ ∨ _))

/-- A row in which a column matches. -/
def rowMatches (pattern : String) (row : OpenvpnServerLog) : Bool :=
  [row.username, some row.event, row.occurredRaw, row.ipAddress, some row.rawLine].any fun column =>
    column.any (env.ilike · pattern)

/-- The rows of a node that match a search, the newest first. -/
def logRows (nodeID q : String) (table : List OpenvpnServerLog) : List OpenvpnServerLog :=
  (table.filter fun row =>
    row.agentNodeId = nodeID && (q = "" || rowMatches env ("%" ++ q ++ "%") row)).insertionSort
      (NewestFirst env)

/-- The columns of an answer. -/
def logEntry (row : OpenvpnServerLog) : LogEntry :=
  ⟨env.id row, row.occurredAt, row.occurredRaw, row.event, row.username, row.ipAddress⟩

/-- The page size of a request. -/
def logPageSize (pageSize : ℤ) : ℤ := min (if pageSize < 10 then 50 else pageSize) 200

/-- `GetOpenvpnLogsForPanel`, where its three statements find these nodes, count the rows of one
table and show those of another; an error has its status. -/
def getOpenvpnLogsForPanel (nodes : List AgentNode) (counted shown : List OpenvpnServerLog)
    (nodeID : String) (query : LogsQuery) : Except (ℤ × String) LogsPage :=
  match env.nodeError, Rows.byKey (·.id) nodeID nodes with
  | some e, _ => .error (500, e)
  | none, none => .error (404, "Узел не найден")
  | none, some node =>
    let page := if query.page < 1 then 1 else query.page
    let pageSize := logPageSize query.pageSize
    let q := GoStrings.trimSpace query.q
    let total := (logRows env node.id q counted).length
    -- the count is an `int`, and so is the product
    let offset := Int.bmod ((page - 1) * pageSize) (2 ^ 64)
    match env.countError with
    | some e => .error (500, e)
    | none =>
      if 2 ^ 31 ≤ total then .error (500, "ERROR: integer out of range (SQLSTATE 22003)")
      else
        match env.rowsError with
        | some e => .error (500, e)
        | none =>
          if offset < 0 then .error (500, "ERROR: OFFSET must not be negative (SQLSTATE 2201X)")
          else
            .ok
              { page := page
                pageSize := pageSize
                total := total
                totalPages := max 1 ⌈Float64.nearest ((total : ℚ) / pageSize)⌉
                rows := (((logRows env node.id q shown).drop offset.toNat).take pageSize.toNat).map
                  (logEntry env) }

variable {env} {w : LogWorld} {nodeID : String} {node : AgentNode} {query : LogsQuery}

theorem logPageSize_bounds (pageSize : ℤ) : 10 ≤ logPageSize pageSize ∧
    logPageSize pageSize ≤ 200 := by
  rw [logPageSize]
  split_ifs <;> omega

/-- A request when nothing else happens. -/
def logsPage (env : LogsEnv) (w : LogWorld) (nodeID : String) (query : LogsQuery) :
    Except (ℤ × String) LogsPage :=
  getOpenvpnLogsForPanel env w.nodes w.table w.table nodeID query

/-- Nothing fails, and the node has few enough lines to be counted. -/
structure Answers (env : LogsEnv) (w : LogWorld) (node : AgentNode) (q : String) : Prop where
  found : Rows.byKey (·.id) node.id w.nodes = some node
  nodeError : env.nodeError = none
  countError : env.countError = none
  rowsError : env.rowsError = none
  few : (logRows env node.id (GoStrings.trimSpace q) w.table).length < 2 ^ 31

/-- The number of pages. -/
def pageCount (total : ℕ) (pageSize : ℤ) : ℤ := max 1 ⌈(total : ℚ) / pageSize⌉

/-- A page of some rows, where `k` pages come before it. -/
def pageAt (env : LogsEnv) (rows : List OpenvpnServerLog) (pageSize : ℤ) (k : ℕ) : LogsPage where
  page := k + 1
  pageSize := pageSize
  total := rows.length
  totalPages := pageCount rows.length pageSize
  rows := ((rows.drop (k * pageSize.toNat)).take pageSize.toNat).map (logEntry env)

/-- There are no more pages than rows. -/
theorem pageCount_le {total : ℕ} {pageSize : ℤ} (h : 1 ≤ pageSize) :
    pageCount total pageSize ≤ max 1 total := by
  have hsize : (1 : ℚ) ≤ pageSize := by exact_mod_cast h
  have hdiv : (total : ℚ) / pageSize ≤ (total : ℤ) := by
    rw [Int.cast_natCast]
    exact div_le_self (Nat.cast_nonneg total) hsize
  rw [pageCount, Nat.cast_max, Nat.cast_one]
  exact max_le_max le_rfl (Int.ceil_le.2 hdiv)

/-- The pages have room for the rows. -/
theorem le_pageCount_mul {total : ℕ} {pageSize : ℤ} (h : 0 < pageSize) :
    total ≤ (pageCount total pageSize).toNat * pageSize.toNat := by
  have hsize : (0 : ℚ) < pageSize := by exact_mod_cast h
  have hmax : ⌈(total : ℚ) / pageSize⌉ ≤ pageCount total pageSize := le_max_right _ _
  have hceil : (total : ℚ) / pageSize ≤ pageCount total pageSize :=
    (Int.le_ceil _).trans (Int.cast_le.2 hmax)
  rw [div_le_iff₀ hsize] at hceil
  have hint : (total : ℤ) ≤ pageCount total pageSize * pageSize := by exact_mod_cast hceil
  have hcount : (0 : ℤ) ≤ pageCount total pageSize := zero_le_one.trans (le_max_left _ _)
  zify
  rwa [Int.toNat_of_nonneg hcount, Int.toNat_of_nonneg h.le]

/-- The offset of a page is computed without an overflow. -/
theorem bmod_offset {k size : ℤ} (hk : 0 ≤ k) (hk' : k < 2147483648) (hsize : 0 ≤ size)
    (hsize' : size ≤ 200) :
    Int.bmod (k * size) (2 ^ 64) = k * size := by
  have hlow : 0 ≤ k * size := mul_nonneg hk hsize
  have hhigh : k * size ≤ 2147483648 * 200 := mul_le_mul hk'.le hsize' hsize (by norm_num)
  generalize k * size = offset at hlow hhigh
  rw [Int.bmod_def]
  omega

/-- The number of pages is computed as it is. -/
theorem ceil_pages {total : ℕ} {pageSize : ℤ} (hfew : total < 2 ^ 31) (hlow : 10 ≤ pageSize)
    (hhigh : pageSize ≤ 200) :
    max 1 ⌈Float64.nearest ((total : ℚ) / pageSize)⌉ = pageCount total pageSize := by
  obtain ⟨n, rfl⟩ := Int.eq_ofNat_of_zero_le (show 0 ≤ pageSize by omega)
  rw [pageCount, Int.cast_natCast, Float64.ceil_nearest_div (by omega) (by omega) (by omega)]

/-- **A page up to the last one** is answered. -/
theorem page_eq {q : String} (h : Answers env w node q) (pageSize : ℤ) {k : ℕ}
    (hlast : k < pageCount (logRows env node.id (GoStrings.trimSpace q) w.table).length
      (logPageSize pageSize)) :
    logsPage env w node.id ⟨k + 1, pageSize, q⟩ =
      .ok (pageAt env (logRows env node.id (GoStrings.trimSpace q) w.table)
      (logPageSize pageSize) k) := by
  obtain ⟨hlow, hhigh⟩ := logPageSize_bounds pageSize
  have hfew := h.few
  simp only [logsPage, getOpenvpnLogsForPanel, h.found, h.nodeError, h.countError, h.rowsError]
  generalize logRows env node.id (GoStrings.trimSpace q) w.table = rows at hlast hfew
  generalize logPageSize pageSize = size at hlow hhigh hlast
  have hpage : (if (k : ℤ) + 1 < 1 then 1 else (k : ℤ) + 1) = k + 1 := if_neg (by omega)
  have hk : (k : ℤ) < 2147483648 := by
    have hle := hlast.trans_le (pageCount_le (show 1 ≤ size by omega))
    omega
  have hoffset := bmod_offset (Int.natCast_nonneg k) hk (show 0 ≤ size by omega) hhigh
  have hnonneg : ¬(k : ℤ) * size < 0 := not_lt.2 (mul_nonneg (Int.natCast_nonneg k) (by omega))
  have hstart : ((k : ℤ) * size).toNat = k * size.toNat := by
    rw [Int.toNat_mul (Int.natCast_nonneg k) (by omega), Int.toNat_natCast]
  rw [hpage, add_sub_cancel_right, hoffset, if_neg (not_le.2 hfew), if_neg hnonneg,
    ceil_pages hfew hlow hhigh, hstart]
  rfl

/-- The parts of a list one after another. -/
theorem flatMap_parts {α : Type*} (l : List α) (size : ℕ) {n : ℕ} (h : l.length ≤ n * size) :
    (List.range n).flatMap (fun k => (l.drop (k * size)).take size) = l := by
  have hparts : ∀ n, (List.range n).flatMap (fun k => (l.drop (k * size)).take size) =
      l.take (n * size) := by
    intro n
    induction n with
    | zero => simp
    | succ n ih =>
      rw [List.range_succ, List.flatMap_append, ih, List.flatMap_singleton,
        add_mul, one_mul, List.take_add]
  rw [hparts, List.take_of_length_le h]

/-- **The pages of a node** are its rows, one after another. -/
theorem pages_eq {q : String} (h : Answers env w node q) (pageSize : ℤ) :
    ∃ pages : List LogsPage,
      (∀ p ∈ pages, p.totalPages = pages.length) ∧
      (∀ (k : ℕ) (hk : k < pages.length),
        logsPage env w node.id ⟨k + 1, pageSize, q⟩ = .ok pages[k]) ∧
      pages.flatMap (·.rows) = (logRows env node.id (GoStrings.trimSpace q) w.table).map
      (logEntry env) := by
  obtain ⟨hlow, hhigh⟩ := logPageSize_bounds pageSize
  have hpage := fun k => @page_eq env w node q h pageSize k
  generalize logRows env node.id (GoStrings.trimSpace q) w.table = rows at hpage ⊢
  generalize logPageSize pageSize = size at hlow hhigh hpage
  have hcount : (0 : ℤ) ≤ pageCount rows.length size := zero_le_one.trans (le_max_left _ _)
  refine ⟨(List.range (pageCount rows.length size).toNat).map (pageAt env rows size), ?_, ?_, ?_⟩
  · intro p hp
    obtain ⟨k, -, rfl⟩ := List.mem_map.1 hp
    rw [List.length_map, List.length_range, Int.toNat_of_nonneg hcount]
    rfl
  · intro k hk
    rw [List.length_map, List.length_range] at hk
    rw [List.getElem_map, List.getElem_range]
    exact hpage k (by omega)
  · rw [List.flatMap_map]
    have hrows : ∀ k, (pageAt env rows size k).rows =
        ((rows.drop (k * size.toNat)).take size.toNat).map (logEntry env) := fun k => rfl
    simp only [hrows]
    rw [← List.map_flatMap, flatMap_parts rows size.toNat (le_pageCount_mul (by omega))]

/-! ### Runs -/

instance : Std.Total (NewestFirst env) where
  total a b := by
    obtain h | h | h := lt_trichotomy a.occurredAt b.occurredAt
    · exact .inr (.inl h)
    · exact (env.collation.total (env.id b) (env.id a)).imp (.inr ⟨h, ·⟩) (.inr ⟨h.symm, ·⟩)
    · exact .inl (.inl h)

instance : IsTrans OpenvpnServerLog (NewestFirst env) where
  trans a b c := by
    rintro (hab | ⟨hab, hid⟩) (hbc | ⟨hbc, hid'⟩)
    · exact .inl (hbc.trans hab)
    · exact .inl (hbc ▸ hab)
    · exact .inl (hab.symm ▸ hbc)
    · exact .inr ⟨hab.trans hbc, env.collation.trans hid' hid⟩

/-- Without a search all rows of a node match. -/
theorem perm_logRows {q : String} {table : List OpenvpnServerLog} (hq : q = "") :
    (logRows env nodeID q table).Perm (table.filter fun row => row.agentNodeId = nodeID) := by
  rw [logRows]
  simpa [hq] using List.perm_insertionSort (NewestFirst env) _

theorem mem_logRows {q : String} {table : List OpenvpnServerLog}
    {row : OpenvpnServerLog} (hq : q = "") :
    row ∈ logRows env nodeID q table ↔ row ∈ table ∧ row.agentNodeId = nodeID := by
  rw [(perm_logRows hq).mem_iff, List.mem_filter, decide_eq_true_eq]

/-- The rows of a node after a run: all that the table has of the node, the newest first, no line
twice, each of them a line that an agent has answered. A line with a date that is not too old is
there when a statement has stored it and the lines of the node were not deleted since. -/
structure Listing (env : LogsEnv) (gunzip : List UInt8 → Option String) (retentionDays : ℤ)
    (p : Requests.Shared LogRequest LogWorld Statement) (nodeID : String)
    (rows : List OpenvpnServerLog) : Prop where
  stored : rows.Perm (p.world.table.filter fun row => row.agentNodeId = nodeID)
  sorted : rows.Pairwise (NewestFirst env)
  once : (rows.map (·.rawLine)).Nodup
  answered : ∀ row ∈ rows, ∃ i line, Answered gunzip p.started i nodeID line ∧ row.rawLine =
    GoStrings.trimSpace line
  recent : ∀ line d, HasRow line → lineDate line = some d →
    cutoff retentionDays p.world.now ≤ Timestamp.stamp d →
    ((∃ row ∈ rows, row.rawLine = GoStrings.trimSpace line) ↔
      ∃ later st earlier, p.history.map Prod.snd = later ++ st :: earlier ∧ Reports nodeID line st ∧
        .clear nodeID ∉ later)

variable {sha1Hex : String → String} {gunzip : List UInt8 → Option String} {retentionDays : ℤ}

/-- The rows of a node in a state of a run. -/
theorem listing_logRows {s : Requests.Shared LogRequest LogWorld Statement} {q : String}
    (h : LogInv sha1Hex gunzip retentionDays s)
    (hsha : Set.InjOn sha1Hex (answeredTexts gunzip s.started))
    (hq : q = "") : Listing env gunzip retentionDays s nodeID
    (logRows env nodeID q s.world.table) where
  stored := perm_logRows hq
  sorted := List.pairwise_insertionSort _ _
  once := by
    have hkept : ((s.world.table.filter fun row => row.agentNodeId = nodeID).map fun row =>
        (row.agentNodeId, row.rawLine)).Nodup :=
          h.kept.lines_nodup.sublist (List.filter_sublist.map _)
    refine ((perm_logRows hq).map (·.rawLine)).nodup_iff.2 ?_
    -- the rows have one node, so their lines tell them apart
    have hpair : (s.world.table.filter fun row => row.agentNodeId = nodeID).map (fun row =>
        (row.agentNodeId, row.rawLine)) =
          ((s.world.table.filter fun row => row.agentNodeId = nodeID).map (·.rawLine)).map
          (nodeID, ·) := by
      rw [List.map_map]
      refine List.map_congr_left fun row hrow => ?_
      rw [of_decide_eq_true (List.mem_filter.1 hrow).2]
      rfl
    rw [hpair] at hkept
    exact hkept.of_map
  answered row hrow := by
    obtain ⟨hmem, rfl⟩ := (mem_logRows hq).1 hrow
    exact h.answered_row hmem
  recent line d hline hd hrecent := by
    have hstored : (∃ row ∈ logRows env nodeID q s.world.table,
        row.rawLine = GoStrings.trimSpace line) ↔ Stored nodeID line s.world.table := by
      simp only [mem_logRows hq, and_assoc, Stored]
    rw [hstored, h.stored_iff hsha hline hd]
    -- no cleanup has deleted the line
    have hclear : ∀ later st earlier, s.history.map Prod.snd = later ++ st :: earlier →
        ((∀ st' ∈ later, ¬Agent.LogTable.Removes nodeID d st') ↔ .clear nodeID ∉ later) := by
      intro later st earlier hsplit
      have hmem : ∀ st' ∈ later, st' ∈ s.history.map Prod.snd := fun st' hst' =>
        hsplit ▸ List.mem_append_left _ hst'
      constructor
      · exact fun hkept hcleared => hkept _ hcleared (.inl rfl)
      · intro hcleared st' hst' hremoves
        rw [h.removes_iff hrecent (hmem st' hst')] at hremoves
        exact hcleared (hremoves ▸ hst')
    constructor
    · rintro ⟨later, st, earlier, hsplit, hreports, hkept⟩
      exact ⟨later, st, earlier, hsplit, hreports, (hclear later st earlier hsplit).1 hkept⟩
    · rintro ⟨later, st, earlier, hsplit, hreports, hcleared⟩
      exact ⟨later, st, earlier, hsplit, hreports, (hclear later st earlier hsplit).2 hcleared⟩

/-- **The log of a node.** In any run, where SHA-1 tells the reported lines apart, the pages of a
node are the rows of its listing one after another. -/
theorem log_pages {world : LogWorld} {events : List (Requests.Event LogRequest ℤ)}
    {p : Requests.Pool LogRequest LogWorld Statement (Except String (List SyncResult))} {q : String}
    (hrun : LogRun sha1Hex gunzip retentionDays world events p)
    (hsha : Set.InjOn sha1Hex (answeredTexts gunzip p.started))
    (h : Answers env p.world node q) (hq : GoStrings.trimSpace q = "") (pageSize : ℤ) :
    ∃ (pages : List LogsPage) (rows : List OpenvpnServerLog),
      (∀ page ∈ pages, page.totalPages = pages.length) ∧
      (∀ (k : ℕ) (hk : k < pages.length),
        logsPage env p.world node.id ⟨k + 1, pageSize, q⟩ = .ok pages[k]) ∧
      pages.flatMap (·.rows) = rows.map (logEntry env) ∧
      Listing env gunzip retentionDays p.toShared node.id rows := by
  obtain ⟨pages, htotal, hpages, hrows⟩ := pages_eq h pageSize
  exact ⟨pages, _, htotal, hpages, hrows, listing_logRows hrun.inv hsha hq⟩

/-- A pass in which the agent of the only node answers one line. -/
def oneLine : Agent.LogTable.Poll where
  listError := none
  info _ :=
    .ok (GoMap.ofList
      [("recentLogs", .arr [.str "2024-09-02 10:00:00 TCP connection established"])])
  updateError _ := none
  inserted _ _ := true
  cleaned _ := true

/-- The node, an hour after the time of the line. -/
def oneLineWorld : LogWorld := ⟨1725274800000000000, [⟨"n1", "Office"⟩], []⟩

/-- SHA-1 of the text of the fingerprint of this line. -/
def oneLineSha1 : String → String :=
  Equiv.swap "n1|2024-09-02 10:00:00|2024-09-02 10:00:00 TCP connection established"
    "46a46c7464dbfe39910b9da8737aba9787ae6bbf"

/-- The keys of the rows are their fingerprints, and nothing fails. -/
def oneLineEnv : LogsEnv where
  id := (·.fingerprint)
  collation :=
    { le := fun a b => decide (a ≤ b)
      total := fun a b => by simpa using le_total a b
      trans :=
        fun hab hbc => decide_eq_true ((of_decide_eq_true hab).trans (of_decide_eq_true hbc)) }
  ilike _ _ := false
  nodeError := none
  countError := none
  rowsError := none

theorem log_pages_oneLine :
    ∃ p, LogRun oneLineSha1 (fun _ => none) 10 oneLineWorld
      (.start (.sync oneLine) :: List.replicate 6 (.act 0)) p ∧
      ∃ (pages : List LogsPage) (rows : List OpenvpnServerLog),
        (∀ page ∈ pages, page.totalPages = pages.length) ∧
        (∀ (k : ℕ) (hk : k < pages.length),
          logsPage oneLineEnv p.world "n1" ⟨k + 1, 50, ""⟩ = .ok pages[k]) ∧
        pages.flatMap (·.rows) = rows.map (logEntry oneLineEnv) ∧
        Listing oneLineEnv (fun _ => none) 10 p.toShared "n1" rows := by
  have hrun : (Runs.run
      (Requests.step (LogRequest.program oneLineSha1 (fun _ => none) 10) Agent.LogTable.tick)
      (.initial oneLineWorld) (.start (.sync oneLine) :: List.replicate 6 (.act 0))).any (fun p =>
        decide (Rows.byKey (·.id) "n1" p.world.nodes = some ⟨"n1", "Office"⟩ ∧
          (logRows oneLineEnv "n1" (GoStrings.trimSpace "") p.world.table).length = 1)) = true := by
    decide +kernel
  obtain ⟨p, hp, hstate⟩ := (Option.any_eq_true _ _).1 hrun
  obtain ⟨hfound, hlength⟩ := of_decide_eq_true hstate
  have hanswers : Answers oneLineEnv p.world ⟨"n1", "Office"⟩ "" :=
    ⟨hfound, rfl, rfl, rfl, by rw [hlength]; decide⟩
  have hlog : LogRun oneLineSha1 (fun _ => none) 10 oneLineWorld
      (.start (.sync oneLine) :: List.replicate 6 (.act 0)) p :=
    ⟨rfl, by decide, by decide, hp⟩
  exact ⟨p, hlog, log_pages hlog (Equiv.injective _).injOn hanswers (by decide +kernel) 50⟩

end OpenvpnControl.Panel
