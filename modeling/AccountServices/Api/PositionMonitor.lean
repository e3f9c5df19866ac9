import AccountServices.Portfolio.RowLocks

/-!
# The position monitor

`api/position_monitor_api.cpp`: a process that reads the rows of the position table without taking
their locks. It loads the flag of the row, copies the columns one by one, and loads the flag again.
Rows have no sequence number, so two flags that are both free do not say that no call has been in
between.
-/

set_option autoImplicit false

namespace AccountServices

open Foundation

/-- The columns of a row in the order in which the monitor copies them: each copies one column of
the row into the snapshot. -/
def monitorCopies : (r : Option Nat) → List (TableRow r → TableRow r → TableRow r)
  | none =>
      [fun row out => { out with totalAsset := row.totalAsset }, fun row out =>
        { out with available := row.available },
        fun row out => { out with frozen := row.frozen }, fun row out =>
          { out with marketValue := row.marketValue }]
  | some _ =>
      [fun row out => { out with id := row.id }, fun row out => { out with name := row.name },
        fun row out => { out with volumeAvailableT0 := row.volumeAvailableT0 },
        fun row out => { out with volumeAvailableT1 := row.volumeAvailableT1 },
        fun row out => { out with volumeBuy := row.volumeBuy }, fun row out =>
          { out with dvalueBuy := row.dvalueBuy },
        fun row out => { out with volumeBuyTraded := row.volumeBuyTraded },
        fun row out => { out with dvalueBuyTraded := row.dvalueBuyTraded },
        fun row out => { out with volumeSell := row.volumeSell }, fun row out =>
          { out with dvalueSell := row.dvalueSell },
        fun row out => { out with volumeSellTraded := row.volumeSellTraded },
        fun row out => { out with dvalueSellTraded := row.dvalueSellTraded },
        fun row out => { out with countOrder := row.countOrder }]

/-- The snapshot before the first copy. -/
def monitorBlank : (r : Option Nat) → TableRow r
  | none => ({} : FundInfo)
  | some _ => ({} : Position)

/-- Whether the snapshot of a row is handed out: the row of a security must have a key. -/
def monitorAccepts : (r : Option Nat) → TableRow r → Bool
  | none, _ => true
  | some _, row => !row.id.isEmpty

/-- A call of the monitor: `acct_positions_mon_read_fund` and `acct_positions_mon_read_position`. -/
inductive MonitorCall where
  | readFund
  | readPosition (index : UInt32)

/-- How the monitor answers. -/
inductive MonitorAnswer where
  | notFound
  | retry
  | row (r : Option Nat) (snapshot : TableRow r)

/-- Where a call of the monitor is. -/
inductive MonitorStep where
  | missing
  | reading (r : Option Nat) (attempts : Nat)
  | copying (r : Option Nat) (attempts : Nat) (out : TableRow r)
      (rest : List (TableRow r → TableRow r → TableRow r))

/-- One access of the monitor. -/
inductive MonitorAccess : MonitorStep → LockedRows TableRow → MonitorStep ⊕ MonitorAnswer →
    LockedRows TableRow → Prop
  | missing (t : LockedRows TableRow) : MonitorAccess .missing t (.inr .notFound) t
  | locked {r : Option Nat} {attempts : Nat} {t : LockedRows TableRow}
      (hlocked : t.locked r = true) :
      MonitorAccess (.reading r (attempts + 1)) t (.inl (.reading r attempts)) t
  | free {r : Option Nat} {attempts : Nat} {t : LockedRows TableRow} (hfree : t.locked r = false) :
      MonitorAccess (.reading r (attempts + 1)) t
        (.inl (.copying r attempts (monitorBlank r) (monitorCopies r))) t
  | copies (r : Option Nat) (attempts : Nat) (out : TableRow r)
      (copy : TableRow r → TableRow r → TableRow r)
      (rest : List (TableRow r → TableRow r → TableRow r)) (t : LockedRows TableRow) :
      MonitorAccess (.copying r attempts out (copy :: rest)) t
        (.inl (.copying r attempts (copy (t.content r) out) rest)) t
  | stillFree {r : Option Nat} {attempts : Nat} {out : TableRow r} {t : LockedRows TableRow}
      (hfree : t.locked r = false) :
      MonitorAccess (.copying r attempts out []) t
        (.inr (if monitorAccepts r (t.content r) then .row r out else .retry)) t
  | taken {r : Option Nat} {attempts : Nat} {out : TableRow r} {t : LockedRows TableRow}
      (htaken : t.locked r = true) :
      MonitorAccess (.copying r attempts out []) t (.inl (.reading r attempts)) t
  | givesUp (r : Option Nat) (t : LockedRows TableRow) :
      MonitorAccess (.reading r 0) t (.inr .retry) t

namespace PositionManager

/-- The monitor beside the processes that use the table. The number of rows does not change
meanwhile. -/
def monitor (m : PositionManager) : Machine (LockedRows TableRow) MonitorCall MonitorAnswer where
  Local := MonitorStep
  enter
    | .readFund => .reading none 32
    | .readPosition index =>
        if clampSecurityCount m.positionCount ≤ index.toNat then .missing else
          .reading (some (index.toNat + 1)) 32
  Access := MonitorAccess

/-- What a snapshot should be: the row as it is at one moment. -/
def monitorSpec (m : PositionManager) (c : MonitorCall) (a : MonitorAnswer) (m' : PositionManager) :
    Prop :=
  m' = m ∧
    match c, a with
    | _, .retry => True
    | .readFund, .row none f => f = m.fund
    | .readPosition index, .row (some n) p => n = index.toNat + 1 ∧ p = m.rows n
    | .readPosition index, .notFound => clampSecurityCount m.positionCount ≤ index.toNat
    | _, _ => False

/-- The table with the monitor beside it. -/
def monitored (m : PositionManager) : Machine (LockedRows TableRow) (TableCall ⊕ MonitorCall)
    (TableAnswer ⊕ MonitorAnswer) :=
  (LockedRows.machine positionLock m.plan).beside m.monitor

/-- What the table with the monitor should be. -/
def monitoredSpec (m : PositionManager) (c : TableCall ⊕ MonitorCall)
    (a : TableAnswer ⊕ MonitorAnswer) (m' : PositionManager) : Prop :=
  match c, a with
  | .inl c, .inl a => tableSpec m c a m'
  | .inr c, .inr a => monitorSpec m c a m'
  | _, _ => False

section Alone

variable {ι : Type} [DecidableEq ι] {m : PositionManager}
  {MayCall : List (Occurrence ι (TableCall ⊕ MonitorCall) (TableAnswer ⊕ MonitorAnswer)) → ι →
    TableCall ⊕ MonitorCall → Prop}
  {t : LockedRows TableRow}
    {h : List (Occurrence ι (TableCall ⊕ MonitorCall) (TableAnswer ⊕ MonitorAnswer))}
  {s : Threads ι (LockedRows TableRow) m.monitored.Local} {i : ι} {r : Option Nat}

/-- A call that holds its lock runs to its end while the other threads wait. -/
theorem inside_alone (p : Program ColumnAccess (TableRow r) TableAnswer)
    (hrun : m.monitored.Run MayCall t h s) (hin : s.inside i = some (.inl (.inside r p))) :
    m.monitored.Run MayCall t (h ++ [.answer i (.inl (p.run (s.memory.content r)).1)])
      ⟨⟨Function.update s.memory.locked r false, Function.update s.memory.content r
        (p.run (s.memory.content r)).2⟩, Function.update s.inside i none⟩ := by
  induction p generalizing s with
  | done a =>
      have haccess :=
        Machine.Run.answer hrun hin
        (Or.inl ⟨_, _, rfl, LockedRows.Access.releases r a s.memory, rfl⟩)
      have hsame : Function.update s.memory.content r (s.memory.content r) = s.memory.content :=
        Function.update_eq_self _ _
      simpa only [Program.run_done, hsame] using haccess
  | step label effect next ih =>
      have haccess := Machine.Run.access hrun hin
        (Or.inl ⟨_, _, rfl, LockedRows.Access.works r label effect next s.memory, rfl⟩)
      have hend := ih (s.memory.content r) haccess (Function.update_self _ _ _)
      simp only [Function.update_self, Function.update_idem] at hend
      exact hend

/-- A call on a row whose lock is free runs to its end while the other threads wait. -/
theorem call_alone {c : TableCall} {body : Program ColumnAccess (TableRow r) TableAnswer}
    (hrun : m.monitored.Run MayCall t h s) (hidle : s.inside i = none) (hmay : MayCall h i (.inl c))
    (hplan : m.plan c = .inr ⟨r, body⟩) (hfree : s.memory.locked r = false) :
    m.monitored.Run MayCall t
      (h ++ [.call i (.inl c)] ++ [.answer i (.inl (body.run (s.memory.content r)).1)])
      ⟨⟨s.memory.locked, Function.update s.memory.content r (body.run (s.memory.content r)).2⟩,
        s.inside⟩ := by
  have hcall := Machine.Run.call hrun hidle hmay
  have henter : m.monitored.enter (.inl c) = .inl (.waiting r () body) := by
    show Sum.inl ((m.plan c).elim _ _) = _
    rw [hplan]
    rfl
  rw [henter] at hcall
  have htakes := Machine.Run.access hcall (Function.update_self _ _ _)
    (Or.inl ⟨_, _, rfl, LockedRows.Access.takes (b := true) ⟨rfl, by rw [hfree]; rfl⟩, rfl⟩)
  have hend := inside_alone body htakes (Function.update_self _ _ _)
  have hlocked : Function.update s.memory.locked r false = s.memory.locked := by
    rw [← hfree, Function.update_eq_self]
  have hinside : Function.update s.inside i none = s.inside := by
    rw [← hidle, Function.update_eq_self]
  simpa only [Function.update_idem, hlocked, hinside] using hend

end Alone

/-! ## A snapshot of no moment -/

section Torn

variable {m : PositionManager}

/-- The monitor copies two columns of the FUND row, a call of the service comes and goes, and the
monitor copies the other two: the flag is free at both loads. -/
theorem mixed_run (m : PositionManager) {c : TableCall}
    {body : Program ColumnAccess FundInfo TableAnswer} (hplan : m.plan c = .inr ⟨none, body⟩) :
    ∃ s, m.monitored.Run (fun _ (_ : Bool) _ => True) ⟨fun _ => false, m.lockedRows⟩
      ([.call false (.inr .readFund)] ++ [.call true (.inl c)] ++
        [.answer true (.inl (body.run m.fund).1)] ++ [.answer false (.inr (.row none
          ({ m.fund with frozen := (body.run m.fund).2.frozen, marketValue :=
            (body.run m.fund).2.marketValue } : FundInfo)))]) s := by
  have hstart : m.monitored.Run (fun _ (_ : Bool) _ => True) ⟨fun _ => false, m.lockedRows⟩ []
      ⟨_, fun _ => none⟩ := Machine.Run.start
  have hcall := Machine.Run.call (i := false) (c := .inr .readFund) hstart rfl trivial
  have hflag := Machine.Run.access hcall (Function.update_self _ _ _)
    (Or.inr ⟨_, _, rfl, .free rfl, rfl⟩)
  have htotal := Machine.Run.access hflag (Function.update_self _ _ _)
    (Or.inr ⟨_, _, rfl, .copies _ _ _ _ _ _, rfl⟩)
  have havailable := Machine.Run.access htotal (Function.update_self _ _ _)
    (Or.inr ⟨_, _, rfl, .copies _ _ _ _ _ _, rfl⟩)
  have hservice := call_alone (i := true) havailable rfl trivial hplan rfl
  have hfrozen := Machine.Run.access hservice (Function.update_self _ _ _)
    (Or.inr ⟨_, _, rfl, .copies _ _ _ _ _ _, rfl⟩)
  have hmarket := Machine.Run.access hfrozen (Function.update_self _ _ _)
    (Or.inr ⟨_, _, rfl, .copies _ _ _ _ _ _, rfl⟩)
  have hend := Machine.Run.answer hmarket (Function.update_self _ _ _)
    (Or.inr ⟨_, _, rfl, .stillFree rfl, rfl⟩)
  exact ⟨_, hend⟩

/-- Every snapshot of the FUND row that an atomic table shows has the cash of the account. -/
theorem monitoredSpec_keepsCash {m m' : PositionManager} {c : TableCall ⊕ MonitorCall}
    {a : TableAnswer ⊕ MonitorAnswer}
    (h : monitoredSpec m c a m') (hc : ∀ call, c = .inl call → call.KeepsCash) :
    m'.fund.held = m.fund.held ∧ ∀ f : FundInfo, a = .inr (.row none f) → f.held = m.fund.held := by
  cases c with
  | inl c =>
      cases a with
      | inl a => exact ⟨(tableSpec_keepsCash h (hc c rfl)).1, by simp⟩
      | inr a => exact absurd h id
  | inr c =>
      cases a with
      | inl a => exact absurd h id
      | inr a =>
          obtain ⟨rfl, hrow⟩ := h
          refine ⟨rfl, fun f hf => ?_⟩
          obtain rfl := Sum.inr.inj hf
          cases c with
          | readFund =>
              obtain rfl : f = m'.fund := hrow
              rfl
          | readPosition index => exact absurd hrow id

/-- The monitor does not show the FUND row as it is at one moment: on every table from whose cash
something can be frozen there is a run of the service and the monitor whose answers no table that is
read and written in one step gives. -/
theorem monitor_not_linearizable (m : PositionManager) {amount : DValue} {f : FundInfo}
    (hamount : 0 < amount) (hfreeze : m.fund.freezeFund amount = some f) :
    ¬m.monitored.Linearizable (fun _ (_ : Bool) _ => True) ⟨fun _ => false, m.lockedRows⟩
      monitoredSpec m := by
  intro hlin
  have hplan : m.plan (.fund (.freezeFund amount)) =
      .inr ⟨none, (FundRow.freezeFund amount).bind fun b => pure (.ok b)⟩ := rfl
  obtain ⟨s, hrun⟩ := mixed_run m hplan
  have hbody : ((FundRow.freezeFund amount).bind fun b => pure (TableAnswer.ok b)).run
      m.fund = (.ok true, f) := by
    rw [Program.run_bind', FundRow.run_freezeFund, FundRow.settle, hfreeze]
    rfl
  rw [hbody] at hrun
  have hspec : ∀ t c a t', monitoredSpec t c a t' → t.fund.held = m.fund.held →
      (∀ call, c = .inl call → call.KeepsCash) →
      t'.fund.held = m.fund.held ∧ ∀ f : FundInfo, a = .inr (.row none f) →
        f.held = m.fund.held := by
    intro t c a t' htable hheld hc
    rw [← hheld]
    exact monitoredSpec_keepsCash htable hc
  have hheld := hlin.answers hspec rfl hrun (fun i c hmem call hc => by
    subst hc
    simp only [List.mem_append, List.mem_singleton, Occurrence.call.injEq, Sum.inl.injEq,
      reduceCtorEq, and_false, false_or, or_false] at hmem
    rw [hmem.2]
    trivial) false _ (List.mem_append_right _ List.mem_cons_self) _ rfl
  -- the snapshot has the cash from before the freeze and the frozen cash from after it
  obtain ⟨-, -, -, hfrozen⟩ := FundInfo.freezeFund_facts hfreeze
  have hpos := UInt64.lt_iff_toNat_lt.1 hamount
  simp only [FundInfo.held, UInt64.toNat_zero] at hheld hpos
  omega

/-- Ten yuan are frozen while the monitor reads the default fund. -/
theorem default_fund_torn :
    (0 < (1000 : DValue) ∧
      ofDefaultFund.fund.freezeFund 1000 =
        some { defaultFund with available := 99999000, frozen := 1000 }) ∧
      ¬ofDefaultFund.monitored.Linearizable (fun _ (_ : Bool) _ => True)
        ⟨fun _ => false, ofDefaultFund.lockedRows⟩ monitoredSpec ofDefaultFund :=
  have hfreeze : ofDefaultFund.fund.freezeFund 1000 =
      some { defaultFund with available := 99999000, frozen := 1000 } := by decide
  ⟨⟨by decide, hfreeze⟩, monitor_not_linearizable ofDefaultFund (by decide) hfreeze⟩

end Torn

end PositionManager

end AccountServices
