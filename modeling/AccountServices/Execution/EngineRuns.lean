import AccountServices.Execution.Turns

/-!
# Runs of the engine

The engine is called in three ways: a session is started, all sessions are advanced, and a response
is handed to the session of its child. Between two calls the rest of the service may do anything to
the world but touch the sessions and their records. A run of the engine is a sequence of such calls,
each of them amid the steps of the gateway. `tickSessions_rule` reduces what is claimed about the
loop of `ExecutionEngine::tick` to one turn of one session.
-/

set_option autoImplicit false

namespace AccountServices

open Foundation

/-! ## What a turn leaves alone -/

theorem World.Placed.frame {now : TimestampNs} {routes : Prop} {w v : World}
    {entry : OrderEntry} {sent : Bool}
    (h : w.Placed now routes entry sent v) : v.sessions = w.sessions ∧
      v.childTrace = w.childTrace := by
  cases h with
  | sent hok => exact ⟨rfl, rfl⟩
  | unsent hrefused hok => exact ⟨rfl, rfl⟩
  | shut hrefused => exact ⟨rfl, rfl⟩

theorem World.allocateOrderId_frame (w : World) :
    w.allocateOrderId.2.sessions = w.sessions ∧ w.allocateOrderId.2.childTrace = w.childTrace := by
  obtain ⟨_, _, _, heq⟩ := w.allocateOrderId_eq
  rw [heq]
  exact ⟨rfl, rfl⟩

namespace Session

variable {cfg : Config} {env : Env} {routes : Prop} {w v : World} {s s' : Session}

theorem Submits.frame {now : TimestampNs} {volume : Volume} {price : DPrice} {active : Bool}
    {out : Bool × Session} (h : s.Submits now routes w volume price active out v) :
    v.sessions = w.sessions ∧ out.2.parentRequest = s.parentRequest := by
  cases h with
  | void hvoid => exact ⟨rfl, rfl⟩
  | sent hvolume hplaced =>
      exact ⟨hplaced.frame.1.trans (World.allocateOrderId_frame _).1,
        (addChild_facts s _ volume price).1⟩
  | refused hvolume hplaced => exact ⟨hplaced.frame.1.trans (World.allocateOrderId_frame _).1, rfl⟩

theorem Tries.frame {price : DPrice} {out : Bool × Session}
    (h : s.Tries cfg env routes w price out v) :
    v.sessions = w.sessions ∧ out.2.parentRequest = s.parentRequest := by
  cases h with
  | silent seqNo => exact ⟨rfl, rfl⟩
  | active hdecides hle hsubmits => exact hsubmits.frame
  | passive hsubmits => exact hsubmits.frame
  | both hrefused hdecides hle hfirst hsecond =>
      exact ⟨hsecond.frame.1.trans hfirst.frame.1, hsecond.frame.2⟩

theorem parentRequest_noteCancels (b : OrderBook) (ids : List InternalOrderId) (s : Session) :
    (s.noteCancels b ids).parentRequest = s.parentRequest := by
  induction ids generalizing s with
  | nil => rfl
  | cons relatedId rest ih =>
      rw [noteCancels]
      split
      · exact ih s
      split
      · exact ih s
      · rw [ih]
        rw [noteCancel]
        split <;> rfl

theorem parentRequest_refreshed (s : Session) (b : OrderBook) :
    (s.refreshed b).parentRequest = s.parentRequest := parentRequest_noteCancels b _ _

theorem parentRequest_ready (s : Session) (b : OrderBook) :
    (s.ready b).parentRequest = s.parentRequest :=
  (advanceSliceIfReady_parentRequest _).trans (s.parentRequest_refreshed b)

theorem parentRequest_ended (s : Session) : s.ended.parentRequest = s.parentRequest := by
  rw [ended]
  split
  · exact s.advanceSliceIfReady_parentRequest
  · exact s.advanceSliceIfReady_parentRequest

theorem parentRequest_consumedIf (s : Session) (sent : Bool) :
    (s.consumedIf sent).parentRequest = s.parentRequest := by
  rw [consumedIf]
  split
  · exact s.consumeSlice_parentRequest
  · rfl

/-- A turn leaves the other sessions alone and keeps the parent. -/
theorem Turn.frame (h : s.Turn cfg env routes w s' v) :
    v.sessions = w.sessions ∧ s'.parentRequest = s.parentRequest := by
  have hready := s.parentRequest_ready w.book
  cases h with
  | gone hnone => exact ⟨rfl, rfl⟩
  | fails hfound hfailed => exact ⟨rfl, s.parentRequest_refreshed w.book⟩
  | waits hfound hfailed => exact ⟨rfl, hready⟩
  | ends hfound hfailed hidle hwhy => exact ⟨rfl, hready⟩
  | skips hfound hfailed hbusy hterminal => exact ⟨rfl, hready⟩
  | clip hfound hplan hfailed hidle hcancel hbudget htries =>
      exact ⟨htries.frame.1, htries.frame.2.trans hready⟩
  | @slice price sent t v' hfound hplan hfailed hlive hopen hcancel hbudget htries =>
      refine ⟨?_, ?_⟩
      · split
        · exact htries.frame.1
        · exact htries.frame.1
      · rw [parentRequest_ended, parentRequest_consumedIf]
        exact htries.frame.2.trans hready
  | passes hfound hplan hfailed hlive hcancel =>
      refine ⟨?_, ?_⟩
      · split <;> rfl
      · rw [parentRequest_ended]
        exact hready

end Session

/-! ## The loop of the engine -/

namespace Service

open Program

/-- Every turn of the loop meets the condition, in the world in which it is taken. -/
def TurnsMeet (cfg : Config) (env : Env) (nowNs : TimestampNs) (cond : Session → World → Prop) :
    List InternalOrderId → Schedule → World → Prop
  | [], _, _ => True
  | parentId :: rest, amid, w =>
      let found := (findSession parentId).runAmid amid w
      match found.1 with
      | none => TurnsMeet cfg env nowNs cond rest found.2.2 found.2.1
      | some s =>
          let turn := (do let s' ← s.tick cfg env nowNs; storeSession s' : Service Unit).runAmid
            found.2.2 found.2.1
          cond s found.2.1 ∧ TurnsMeet cfg env nowNs cond rest turn.2.2 turn.2.1

/-- What a turn has to keep: a session passes from `Pre` to `Post` in its turn, the turn of another
session keeps it where it is, and `Glob` holds of the records all the time. -/
structure TurnRule (cfg : Config) (env : Env) (cond routes : Session → World → Prop)
    (Pre Post : InternalOrderId → Session → OrderBook → Prop) (Glob : List ChildTrace → Prop) :
    Prop where
  room : ∀ {s : Session} {w : World}, cond s w → routes s w → w.Routes
  key : ∀ {p : InternalOrderId} {s : Session} {b : OrderBook}, Pre p s b →
    s.parentRequest.internalOrderId = p
  turn : ∀ {p : InternalOrderId} {s s' : Session} {w v : World}, Pre p s w.book →
    Glob w.childTrace →
    cond s w → s.Turn cfg env (routes s w) w s' v → Post p s' v.book ∧ Glob v.childTrace
  others : ∀ {p q : InternalOrderId} {s s' t : Session} {w v : World}, Pre p s w.book → q ≠ p →
    s.Turn cfg env (routes s w) w s' v →
    (Pre q t w.book → Pre q t v.book) ∧ (Post q t w.book → Post q t v.book)

section Rule

variable {cfg : Config} {env : Env} {nowNs : TimestampNs} {cond routes : Session → World → Prop}
  {Pre Post : InternalOrderId → Session → OrderBook → Prop} {Glob : List ChildTrace → Prop}

/-- What holds after the loop over `parents` in `w`. -/
structure TicksDone (Post : InternalOrderId → Session → OrderBook → Prop)
    (Glob : List ChildTrace → Prop)
    (parents : List InternalOrderId) (w : World) (finished : List InternalOrderId) (u : World) :
    Prop where
  glob : Glob u.childTrace
  listed : ∀ p ∈ finished, p ∈ parents
  others : ∀ p, p ∉ parents → u.sessions.lookup p = w.sessions.lookup p
  done : ∀ p ∈ parents, ∀ s, u.sessions.lookup p = some s →
    Post p s u.book ∧ (s.terminal = true ↔ p ∈ finished)
  kept : ∀ q t, q ∉ parents → Post q t w.book → Post q t u.book

/-- The rule of the loop. -/
theorem tickSessions_rule (hrule : TurnRule cfg env cond routes Pre Post Glob)
    {parents : List InternalOrderId} (hnodup : parents.Nodup) (amid : Schedule) {w : World}
    (hpre : ∀ p ∈ parents, ∀ s, w.sessions.lookup p = some s → Pre p s w.book)
    (hglob : Glob w.childTrace)
    (hmeet : TurnsMeet cfg env nowNs cond parents amid w) :
    TicksDone Post Glob parents w ((tickSessions cfg env nowNs parents).runAmid amid w).1
      ((tickSessions cfg env nowNs parents).runAmid amid w).2.1 := by
  induction parents generalizing amid w with
  | nil =>
      refine ⟨hglob, ?_, fun _ _ => rfl, ?_, fun _ _ _ h => h⟩
      · exact fun p hp => absurd hp List.not_mem_nil
      · exact fun p hp => absurd hp List.not_mem_nil
  | cons p rest ih =>
      obtain ⟨hp, hrest⟩ := List.nodup_cons.1 hnodup
      -- the gateway may move before the session is looked up
      have hapart := World.apart_gateway (amid.rely 0 .internal w)
      rw [tickSessions]
      rw [runAmid_bind]
      rw [TurnsMeet] at hmeet
      have hfound : (findSession p).runAmid amid w =
          ((amid.act 0 .internal w).sessions.lookup p, amid.act 0 .internal w, amid.tail) := rfl
      rw [hfound] at hmeet ⊢
      simp only at hmeet ⊢
      generalize amid.act 0 .internal w = w₁ at hmeet hapart ⊢
      generalize amid.tail = amid₁ at hmeet ⊢
      rw [← hapart.book, ← hapart.sessions] at hpre
      rw [← hapart.childTrace] at hglob
      cases hlookup : w₁.sessions.lookup p with
      | none =>
          simp only [hlookup] at hmeet ⊢
          obtain ⟨hglob', hlisted, hothers, hdone, hkept⟩ :=
            ih hrest amid₁ (fun q hq => hpre q (List.mem_cons_of_mem p hq)) hglob hmeet
          refine ⟨hglob', fun q hq => List.mem_cons_of_mem p (hlisted q hq), ?_, ?_, ?_⟩
          · intro q hq
            rw [hothers q fun hmem => hq (List.mem_cons_of_mem p hmem), hapart.sessions]
          · intro q hq s hs
            rcases List.mem_cons.1 hq with rfl | hq
            · rw [hothers q hp, hlookup] at hs
              exact absurd hs (by simp)
            · exact hdone q hq s hs
          · intro q t hq hpost
            rw [← hapart.book] at hpost
            exact hkept q t (fun hmem => hq (List.mem_cons_of_mem p hmem)) hpost
      | some s =>
          simp only [hlookup, runAmid_bind] at hmeet ⊢
          obtain ⟨hcond, hmeet⟩ := hmeet
          have hroom : routes s w₁ → w₁.Routes := hrule.room hcond
          obtain ⟨v, hturned, hamid⟩ := Session.triple_tick cfg env nowNs s hroom amid₁ w₁
            ⟨World.Apart.refl w₁, fun hr => (hroom hr).1⟩
          generalize (s.tick cfg env nowNs).runAmid amid₁ w₁ = out at hmeet hturned hamid ⊢
          obtain ⟨s', u, amid₂⟩ := out
          simp only at hmeet hturned hamid ⊢
          -- the session is stored under the key that it has
          obtain ⟨hsessions, hparent⟩ := hturned.frame
          have hpres := hpre p List.mem_cons_self s hlookup
          have hkeyed : s'.parentRequest.internalOrderId = p := by
            rw [hparent]
            exact hrule.key hpres
          have hstored : (storeSession s').runAmid amid₂ u = ((),
              { amid₂.act 0 .internal u with
                sessions := (amid₂.act 0 .internal u).sessions.insert
                  s'.parentRequest.internalOrderId s' },
              amid₂.tail) := rfl
          have hmoved := World.apart_gateway (amid₂.rely 0 .internal u)
          rw [hstored, hkeyed] at hmeet ⊢
          simp only at hmeet ⊢
          generalize amid₂.act 0 .internal u = u₁ at hmeet hmoved ⊢
          generalize amid₂.tail = amid₃ at hmeet ⊢
          have hbook : u₁.book = v.book := hmoved.book.trans hamid.1.book
          have htrace : u₁.childTrace = v.childTrace := hmoved.childTrace.trans hamid.1.childTrace
          have hlookups : u₁.sessions = w₁.sessions :=
            (hmoved.sessions.trans hamid.1.sessions).trans hsessions
          obtain ⟨hpost, hglobv⟩ := hrule.turn hpres hglob hcond hturned
          have hrestPre : ∀ q ∈ rest, ∀ t, (u₁.sessions.insert p s').lookup q = some t →
              Pre q t u₁.book := by
            intro q hq t ht
            have hne : q ≠ p := fun heq => hp (heq ▸ hq)
            rw [Map.lookup_insert_eq, if_neg hne, hlookups] at ht
            rw [hbook]
            exact (hrule.others hpres hne hturned).1 (hpre q (List.mem_cons_of_mem p hq) t ht)
          obtain ⟨hglob', hlisted, hothers, hdone, hkept⟩ :=
            ih hrest amid₃ hrestPre (htrace ▸ hglobv) hmeet
          simp only at hothers hkept
          refine ⟨hglob', ?_, ?_, ?_, ?_⟩
          · intro q hq
            split at hq
            · rcases List.mem_cons.1 hq with rfl | hq
              · exact List.mem_cons_self
              · exact List.mem_cons_of_mem p (hlisted q hq)
            · exact List.mem_cons_of_mem p (hlisted q hq)
          · intro q hq
            have hne : q ≠ p := fun heq => hq (heq ▸ List.mem_cons_self)
            refine (hothers q fun hmem => hq (List.mem_cons_of_mem p hmem)).trans ?_
            rw [Map.lookup_insert_eq, if_neg hne, hlookups, hapart.sessions]
          · intro q hq t ht
            rcases List.mem_cons.1 hq with rfl | hq
            · have hfound' := (hothers q hp).symm.trans ht
              rw [Map.lookup_insert_eq, if_pos rfl, Option.some.injEq] at hfound'
              subst hfound'
              refine ⟨hkept q s' hp (hbook ▸ hpost), ?_⟩
              split
              next hterminal => exact ⟨fun _ => List.mem_cons_self, fun _ => hterminal⟩
              next hterminal =>
                exact ⟨fun h => absurd h hterminal, fun hmem => absurd (hlisted q hmem) hp⟩
            · obtain ⟨hpostq, hmem⟩ := hdone q hq t ht
              have hne : q ≠ p := fun heq => hp (heq ▸ hq)
              refine ⟨hpostq, hmem.trans ?_⟩
              split
              · exact ⟨List.mem_cons_of_mem p, fun h => (List.mem_cons.1 h).resolve_left hne⟩
              · exact Iff.rfl
          · intro q t hq hpostq
            have hne : q ≠ p := fun heq => hq (heq ▸ List.mem_cons_self)
            refine hkept q t (fun hmem => hq (List.mem_cons_of_mem p hmem)) ?_
            rw [hbook]
            exact (hrule.others hpres hne hturned).2 (hapart.book ▸ hpostq)

end Rule

end Service

/-! ## The start of a session -/

/-- The book after `mark_managed_parent`. -/
def World.markedFor (w : World) (parentId : InternalOrderId) : World :=
  { w with book := (w.book.markManagedParent parentId).book }

/-- The world with a session stored. -/
def World.storing (w : World) (s : Session) : World :=
  { w with sessions := w.sessions.insert s.parentRequest.internalOrderId s }

/-- A start that succeeds: the new session takes its first turn in the world that has its parent
marked and the session stored. -/
structure World.Starts (cfg : Config) (env : Env) (routes : Prop) (w : World)
    (parentIndex : OrderIndex)
    (request : OrderRequest) (strategyId : StrategyId) (startTimeNs : TimestampNs) (s s' : Session)
    (v : World) : Prop where
  created : Session.create cfg.splitConfig parentIndex request strategyId startTimeNs = some s
  unknown : w.sessions.lookup request.internalOrderId = none
  found : (w.book.findOrder request.internalOrderId).isSome = true
  turned : s.Turn cfg env routes ((w.markedFor request.internalOrderId).storing s) s' v

/-- The mark of a managed parent is no order and no link. -/
theorem OrderBook.markManagedParent_facts (b : OrderBook) (parentId : InternalOrderId) :
    (b.markManagedParent parentId).book.table = b.table ∧
      (∀ k, (b.markManagedParent parentId).book.findOrder k = b.findOrder k) ∧
      ∀ k, (b.markManagedParent parentId).book.getChildren k = b.getChildren k := by
  rw [OrderBook.markManagedParent]
  split <;> exact ⟨rfl, fun _ => rfl, fun _ => rfl⟩

namespace Service

open Program

theorem triple_storeSession {M : Option OrdersShm → Option (SpscQueue OrderIndex 18) → Prop}
    (hM : Lasting M) (w : World) (s : Session) :
    Triple World.Gateway (w.Amid M) (storeSession s) fun _ => (w.storing s).Amid M := by
  refine Triple.modify (World.Amid.steady hM w) fun u hu => ⟨?_, hu.2⟩
  have h := hu.1
  rw [World.Apart] at h ⊢
  rw [h]
  rfl

theorem routes_markedFor_storing {w : World} (h : w.Routes) (parentId : InternalOrderId)
    (s : Session) : ((w.markedFor parentId).storing s).Routes := by
  obtain ⟨htable, hbook, -⟩ := w.book.markManagedParent_facts parentId
  have hdrawn : ((w.markedFor parentId).storing s).allocateOrderId.1 = w.allocateOrderId.1 := by
    simp only [World.allocateOrderId, World.storing, World.markedFor]
    cases w.upstreamNextOrderId with
    | some next => rfl
    | none =>
        simp only
        simp only [OrderBook.markManagedParent]
        split <;> rfl
  obtain ⟨hroom, hzero, hnone, hfree⟩ := h
  refine ⟨hroom, hdrawn ▸ hzero, ?_, ?_⟩
  · rw [hdrawn]
    exact (hbook _).trans hnone
  · show (w.book.markManagedParent parentId).book.table.free ≠ []
    rw [htable]
    exact hfree

/-- `start_session`: nothing but the mark of the parent has changed, or a session was started. -/
theorem triple_startSession {routes : Prop} {w : World} (cfg : Config) (env : Env)
    (parentIndex : OrderIndex)
    (request : OrderRequest) (strategyId : StrategyId) (startTimeNs : TimestampNs)
    (hroutes : routes → w.Routes) :
    Triple World.Gateway (w.Amid fun pool queue => routes → HasRoom pool queue)
      (startSession cfg env parentIndex request strategyId startTimeNs) fun _ u =>
        (∃ v : World, v.sessions = w.sessions ∧ v.childTrace = w.childTrace ∧ v.Amid anyMemory u) ∨
        ∃ s s' v, w.Starts cfg env routes parentIndex request strategyId startTimeNs s s' v ∧
          (v.storing s').Amid anyMemory u := by
  -- Every refusal answers without a change.
  have hsame : ∀ {result : SessionStartResult}, Triple World.Gateway
      (w.Amid fun pool queue => routes → HasRoom pool queue)
        (pure result : Service SessionStartResult)
      fun _ u => (∃ v : World, v.sessions = w.sessions ∧ v.childTrace = w.childTrace ∧
        v.Amid anyMemory u) ∨
        ∃ s s' v, w.Starts cfg env routes parentIndex request strategyId startTimeNs s s' v ∧
          (v.storing s').Amid anyMemory u :=
    fun {_} => Triple.pure fun u hu => Or.inl ⟨w, rfl, rfl, hu.forget⟩
  refine Triple.ite (fun _ => hsame) fun _ => ?_
  refine Triple.bind (triple_read lasting_hasRoom w fun u hu =>
    congrArg (fun sessions => AList.lookup request.internalOrderId sessions) hu.sessions)
      fun known => ?_
  refine Triple.pure_and fun hknown => ?_
  subst hknown
  cases hlookup : w.sessions.lookup request.internalOrderId with
  | some session => exact hsame
  | none =>
      refine Triple.ite (fun _ => hsame) fun _ => Triple.ite (fun _ => hsame) fun _ => ?_
      cases hcreate : Session.create cfg.splitConfig parentIndex request strategyId startTimeNs with
      | none => exact hsame
      | some session =>
          refine Triple.bind (triple_onBook lasting_hasRoom w env.nowNs _) fun marked => ?_
          refine Triple.pure_and fun hmarked => Triple.ite (fun htrue => ?_) fun _ => ?_
          -- The book marks only a parent that it knows.
          · have hfound : (w.book.findOrder request.internalOrderId).isSome = true := by
              rw [htrue] at hmarked
              rw [OrderBook.markManagedParent] at hmarked
              split at hmarked
              · exact absurd hmarked (by simp)
              next heq =>
                rw [heq]
                rfl
            refine Triple.bind
              (triple_storeSession lasting_hasRoom (w.markedFor request.internalOrderId)
              session) fun _ => ?_
            refine Triple.bind (Session.triple_tick cfg env startTimeNs session
              fun hr => routes_markedFor_storing (hroutes hr) request.internalOrderId session)
                fun s' => ?_
            -- The session is stored, makes its first tick, and is stored again.
            refine Triple.exists fun v => Triple.pure_and fun hturned => ?_
            refine Triple.bind (triple_storeSession lasting_anyMemory v s') fun _ => ?_
            exact Triple.pure fun u hu =>
              Or.inr ⟨session, s', v, ⟨hcreate, hlookup, hfound, hturned⟩, hu⟩
          · exact Triple.pure fun u hu => Or.inl ⟨w.markedFor _, rfl, rfl, hu.forget⟩

end Service

/-! ## Runs -/

/-- What happens to the engine: one of its three calls, or anything that the rest of the service
does. -/
inductive EngineCall where
  | start (env : Env) (parentIndex : OrderIndex) (request : OrderRequest) (strategyId : StrategyId)
      (startTimeNs : TimestampNs)
  | tick (env : Env) (nowNs : TimestampNs)
  | response (r : TradeResponse)
  | rest (w : World)

/-- A session that `ExecutionEngine::tick` erases, with the book before the tick and the book when
the session is erased. -/
structure ErasedSession where
  session : Session
  before : OrderBook
  after : OrderBook

/-- The state of a run: the world, and the sessions that were erased so far. -/
structure EngineRun where
  world : World
  erased : List ErasedSession := []

namespace EngineRun

/-- The first loop of `ExecutionEngine::tick`. -/
def advanced (cfg : Config) (env : Env) (nowNs : TimestampNs) (amid : Schedule) (w : World) :
    List InternalOrderId × World :=
  let out := (do
    let parents ← Program.read .internal fun w : World => w.sessions.entries.map (·.1)
    Service.tickSessions cfg env nowNs parents : Service (List InternalOrderId)).runAmid amid w
  (out.1, out.2.1)

/-- The sessions that the second loop erases. -/
def ending (cfg : Config) (env : Env) (nowNs : TimestampNs) (amid : Schedule) (w : World) :
    List ErasedSession :=
  (advanced cfg env nowNs amid w).1.filterMap fun parentId =>
    ((advanced cfg env nowNs amid w).2.sessions.lookup parentId).map fun s =>
      ⟨s, w.book, (advanced cfg env nowNs amid w).2.book⟩

/-- One step of a run. -/
def step (cfg : Config) (state : EngineRun) (call : EngineCall × Schedule) : EngineRun :=
  match call.1 with
  | .start env parentIndex request strategyId startTimeNs =>
      { state with
        world := ((Service.startSession cfg env parentIndex request strategyId startTimeNs).runAmid
          call.2 state.world).2.1 }
  | .tick env nowNs =>
      { world := ((Service.tickEngine cfg env nowNs).runAmid call.2 state.world).2.1
        erased := state.erased ++ ending cfg env nowNs call.2 state.world }
  | .response r =>
      { state with world := ((Service.engineOnTradeResponse r).runAmid call.2 state.world).2.1 }
  | .rest w =>
      { state with
        world := { w with sessions := state.world.sessions, childTrace := state.world.childTrace } }

/-! ## One tick of the engine -/

open Program

variable {cfg : Config} {env : Env} {nowNs : TimestampNs}

/-- Every turn of a tick meets the condition. -/
def TicksMeet (cfg : Config) (env : Env) (nowNs : TimestampNs) (cond : Session → World → Prop)
    (amid : Schedule) (w : World) : Prop :=
  let parents :=
    (Program.read .internal fun w : World => w.sessions.entries.map (·.1)).runAmid amid w
  Service.TurnsMeet cfg env nowNs cond parents.1 parents.2.2 parents.2.1

theorem triple_eraseSessions (w : World) (finished : List InternalOrderId) :
    Triple World.Gateway (w.Amid anyMemory)
      (Program.forEach Service.eraseSession finished) fun _ u =>
      u.book = w.book ∧ u.childTrace = w.childTrace ∧
        ∀ p, u.sessions.lookup p = if p ∈ finished then none else w.sessions.lookup p := by
  induction finished generalizing w with
  | nil =>
      refine Triple.pure fun u hu => ⟨hu.1.book, hu.1.childTrace, fun p => ?_⟩
      rw [if_neg List.not_mem_nil, hu.1.sessions]
  | cons parentId rest ih =>
      refine Triple.bind
        (R := fun _ => World.Amid { w with sessions := w.sessions.erase parentId } anyMemory)
        ?_ fun _ => (ih _).mono (fun u hu => hu) ?_
      · refine Triple.modify (World.Amid.steady lasting_anyMemory w) fun u hu => ⟨?_, trivial⟩
        have h := hu.1
        rw [World.Apart] at h ⊢
        rw [h]
      · rintro _ u ⟨hbook, htrace, hlookup⟩
        refine ⟨hbook, htrace, fun p => (hlookup p).trans ?_⟩
        rw [Map.lookup_erase_eq]
        by_cases hp : p = parentId
        · simp [hp]
        · simp [hp]

/-- The world after a tick. -/
theorem tickEngine_facts (cfg : Config) (env : Env) (nowNs : TimestampNs)
    (amid : Schedule) (w : World) :
    ((Service.tickEngine cfg env nowNs).runAmid amid w).2.1.childTrace =
        (advanced cfg env nowNs amid w).2.childTrace ∧
      ∀ p, ((Service.tickEngine cfg env nowNs).runAmid amid w).2.1.sessions.lookup p =
        if p ∈ (advanced cfg env nowNs amid w).1 then none
        else (advanced cfg env nowNs amid w).2.sessions.lookup p := by
  rw [advanced, Service.tickEngine]
  simp only [runAmid_bind]
  generalize
    (Program.read Action.internal fun w : World => w.sessions.entries.map (·.1)).runAmid amid w =
      parents
  obtain ⟨parents, w₁, amid₁⟩ := parents
  simp only
  generalize (Service.tickSessions cfg env nowNs parents).runAmid amid₁ w₁ = out
  obtain ⟨finished, u, amid₂⟩ := out
  obtain ⟨-, htrace, hlookup⟩ := triple_eraseSessions u finished amid₂ u
    ⟨World.Apart.refl u, trivial⟩
  exact ⟨htrace, hlookup⟩

section Rule

variable {cond routes : Session → World → Prop}
  {Pre Post : InternalOrderId → Session → OrderBook → Prop} {Glob : List ChildTrace → Prop}

/-- The rule of a tick: sessions that come from `Pre` end in `Post`. -/
theorem tickEngine_rule (hrule : Service.TurnRule cfg env cond routes Pre Post Glob)
    {amid : Schedule} {w : World} (hpre : ∀ p s, w.sessions.lookup p = some s → Pre p s w.book)
    (hglob : Glob w.childTrace) (hmeet : TicksMeet cfg env nowNs cond amid w) :
    Glob ((Service.tickEngine cfg env nowNs).runAmid amid w).2.1.childTrace ∧
      (∀ p s, ((Service.tickEngine cfg env nowNs).runAmid amid w).2.1.sessions.lookup p = some s →
        s.terminal = false ∧ Post p s (advanced cfg env nowNs amid w).2.book) ∧
      ∀ e ∈ ending cfg env nowNs amid w, e.before = w.book ∧ e.session.terminal = true ∧
        ∃ p, Post p e.session e.after := by
  obtain ⟨htrace, hlookup⟩ := tickEngine_facts cfg env nowNs amid w
  -- the parents are read after the gateway has moved
  have hapart := World.apart_gateway (amid.rely 0 .internal w)
  have hnodup : ((amid.act 0 .internal w).sessions.entries.map (·.1)).Nodup :=
    (amid.act 0 .internal w).sessions.nodupKeys
  have hpres : ∀ p ∈ (amid.act 0 .internal w).sessions.entries.map (·.1), ∀ s,
      (amid.act 0 .internal w).sessions.lookup p = some s →
        Pre p s (amid.act 0 .internal w).book := by
    intro p _ s hs
    rw [hapart.sessions] at hs
    rw [hapart.book]
    exact hpre p s hs
  have hglob' : Glob (amid.act 0 .internal w).childTrace := hapart.childTrace ▸ hglob
  have hdone : Service.TicksDone Post Glob _ _ _ _ :=
    Service.tickSessions_rule hrule hnodup amid.tail hpres hglob' hmeet
  have hadvanced : advanced cfg env nowNs amid w =
      (((Service.tickSessions cfg env nowNs
          ((amid.act 0 .internal w).sessions.entries.map (·.1))).runAmid
          amid.tail (amid.act 0 .internal w)).1,
        ((Service.tickSessions cfg env nowNs
          ((amid.act 0 .internal w).sessions.entries.map (·.1))).runAmid
          amid.tail (amid.act 0 .internal w)).2.1) := rfl
  rw [ending]
  rw [htrace]
  simp only [hlookup]
  rw [hadvanced]
  generalize (Service.tickSessions cfg env nowNs
    ((amid.act 0 .internal w).sessions.entries.map (·.1))).runAmid
    amid.tail (amid.act 0 .internal w) = out at hdone ⊢
  obtain ⟨finished, u, amid'⟩ := out
  simp only at hdone ⊢
  have hmem : ∀ p s, u.sessions.lookup p = some s →
      p ∈ (amid.act 0 .internal w).sessions.entries.map (·.1) := by
    intro p s hs
    by_contra hnot
    rw [hdone.others p hnot] at hs
    exact hnot (List.mem_map.2 ⟨⟨p, s⟩, Map.mem_entries_iff.2 hs, rfl⟩)
  refine ⟨hdone.glob, ?_, ?_⟩
  · intro p s hs
    split at hs
    · exact absurd hs (by simp)
    next hnot =>
      obtain ⟨hpost, hiff⟩ := hdone.done p (hmem p s hs) s hs
      exact ⟨Bool.eq_false_of_not_eq_true fun h => hnot (hiff.1 h), hpost⟩
  · intro e he
    obtain ⟨p, hp, hmap⟩ := List.mem_filterMap.1 he
    obtain ⟨s, hs, rfl⟩ := Option.map_eq_some_iff.1 hmap
    obtain ⟨hpost, hiff⟩ := hdone.done p (hmem p s hs) s hs
    exact ⟨rfl, hiff.2 hp, p, hpost⟩

end Rule

end EngineRun

end AccountServices
