import DungeonHub.Proofs.Expedition

/-!
# Taking turns

Whatever has happened to a server before, clients of different parties can go on expeditions over
and over. However they take turns, each gets on as if it were alone.
-/

namespace DungeonHub

open Run Wire TableContent InstanceManager

/-- Where a client stands on an expedition. -/
inductive Stage where
  | home
  | told (instanceId : UInt64) (ticket : Str)
  | inside (instanceId : UInt64)
  | playing (instanceId : UInt64)

def Stage.rank : Stage → ℕ
  | .home => 0
  | .told _ _ => 1
  | .inside _ => 2
  | .playing _ => 3

/-- A party member's client, and the expeditions that it has yet to finish. -/
structure Client where
  id : ℕ
  partyId : ℕ
  todo : List Expedition
  stage : Stage

/-- The instance that an answer tells of. -/
def foundNotify : Option Answer → Option MatchFoundNotify
  | some ⟨.matchFoundNotify, notify⟩ => some notify
  | _ => none

namespace Client

/-- What comes next: to ask for a match, to enter the instance that one is told of, to have it
played, to report how it went. -/
def act (policy : SecurityPolicy) (c : Client) : Option ServerEvent :=
  match c.todo, c.stage with
  | [], _ => none
  | x :: _, .home => some (clientPacket policy c.id .matchReq x.asking (encodeMatchRequest {}))
  | x :: _, .told i ticket => some (clientPacket policy c.id .dungeonEnterReq x.entering
      (encodeDungeonEnterRequest ⟨i, ticket, x.charId⟩))
  | _ :: _, .inside i => some (.inst (.requestTransition i.toNat .playing))
  | x :: _, .playing _ => some (clientPacket policy c.id .dungeonResultNotify x.reporting
      (encodeDungeonResultNotify x.report))

/-- A client that is refused stays where it is. -/
def learn (answer : Option Answer) (c : Client) : Client :=
  match c.stage with
  | .home => match foundNotify answer with
    | some notify => { c with stage := .told notify.instanceId notify.ticket }
    | none => c
  | .told i _ => if Server.succeeded answer then { c with stage := .inside i } else c
  | .inside i => { c with stage := .playing i }
  | .playing _ =>
    if Server.succeeded answer then { c with todo := c.todo.tail, stage := .home } else c

/-- The stamps that it has not used. -/
def stamps (c : Client) : List Stamp :=
  match c.todo, c.stage with
  | [], _ => []
  | x :: xs, .home => x.stamps ++ xs.flatMap Expedition.stamps
  | x :: xs, .told _ _ => x.entering :: x.reporting :: xs.flatMap Expedition.stamps
  | x :: xs, _ => x.reporting :: xs.flatMap Expedition.stamps

/-- What it is about to be paid. -/
def due (c : Client) : Option Deposit :=
  match c.todo, c.stage with
  | x :: _, .playing _ => some x.deposit
  | _, _ => none

/-- How often it has to act. -/
def left (c : Client) : ℕ := 4 * c.todo.length - c.stage.rank

@[simp] theorem learn_id (answer : Option Answer) (c : Client) : (c.learn answer).id = c.id := by
  unfold learn
  split
  · split <;> rfl
  · split_ifs <;> rfl
  · rfl
  · split_ifs <;> rfl

@[simp] theorem learn_partyId (answer : Option Answer) (c : Client) :
    (c.learn answer).partyId = c.partyId := by
  unfold learn
  split
  · split <;> rfl
  · split_ifs <;> rfl
  · rfl
  · split_ifs <;> rfl

theorem due_of_done {policy : SecurityPolicy} {c : Client} (h : c.act policy = none) :
    c.due = none := by
  obtain ⟨id, partyId, todo, stage⟩ := c
  cases todo with
  | nil => rfl
  | cons x xs => cases stage <;> cases h

theorem todo_of_done {policy : SecurityPolicy} {c : Client} (h : c.act policy = none) :
    c.todo = [] := by
  obtain ⟨id, partyId, todo, stage⟩ := c
  cases todo with
  | nil => rfl
  | cons x xs => cases stage <;> cases h

/-- Who has nothing left to do has done everything. -/
theorem todo_of_left {c : Client} (h : c.left = 0) : c.todo = [] := by
  obtain ⟨id, partyId, todo, stage⟩ := c
  cases todo with
  | nil => rfl
  | cons x xs => cases stage <;> simp [left, Stage.rank] at h <;> omega

end Client

namespace Server

variable {σ : Type} [InventoryStorage σ]

section Turns

variable {s : Server σ} {policy : SecurityPolicy} {id partyId : ℕ} {c : Client} {q j : ℕ}

/-- What is asked for is not refused. -/
def Succeeds (s : Server σ) : ServerEvent → Prop
  | .inst (.requestTransition instanceId next) =>
    (s.instanceManager.requestTransition instanceId next s.partyService).1 = true
  | e => succeeded (s.answerTo e) = true

/-- What the server has for a client on its way. -/
def Expects (s : Server σ) (c : Client) : Prop :=
  match c.todo, c.stage with
  | _, .home => True
  | [], _ => False
  | _ :: _, .told i ticket => ticket.length = 32 ∧
    s.instanceManager.getInstance i.toNat = some ⟨i.toNat, c.partyId, .waiting⟩ ∧
    s.instanceTickets[i.toNat]? = some ticket
  | x :: _, .inside i =>
    s.instanceManager.getInstance i.toNat = some ⟨i.toNat, c.partyId, .ready⟩ ∧
    s.sessionCharacters[c.id]? = some x.charId ∧ s.sessionInstances[c.id]? = some i.toNat
  | x :: _, .playing i =>
    s.instanceManager.getInstance i.toNat = some ⟨i.toNat, c.partyId, .playing⟩ ∧
    s.sessionCharacters[c.id]? = some x.charId ∧ s.sessionInstances[c.id]? = some i.toNat

/-- The client can go on. -/
structure Sits (s : Server σ) (policy : SecurityPolicy) (c : Client) : Prop where
  ready : Ready s policy c.id c.partyId c.stamps
  versions : ∀ x ∈ c.todo, ∀ stamp ∈ x.stamps, stamp.Supported
  grantable : ∀ x ∈ c.todo, Grantable x.report.rewards
  expects : Expects s c

/-- The instance is new, or the party's. -/
def Touchable (s : Server σ) (partyId j : ℕ) : Prop :=
  ∀ record, s.instanceManager.getInstance j = some record → record.partyId = partyId

/-- A client acts, and is not refused. -/
structure Goes (s : Server σ) (policy : SecurityPolicy) (c : Client) (e : ServerEvent) : Prop where
  succeeds : Succeeds s e
  paid : s.deposited e = c.due
  sits : Sits (serverStep s e) policy (c.learn (s.answerTo e))
  left : (c.learn (s.answerTo e)).left + 1 = c.left
  todo : c.todo.map Expedition.deposit =
    c.due.toList ++ (c.learn (s.answerTo e)).todo.map Expedition.deposit
  here : ∃ j, Local (InParty s c.partyId) j s (serverStep s e) ∧ Touchable s c.partyId j

/-- What a client of one party does leaves the clients of others where they are. -/
theorem Sits.aside (h : Sits s policy c) {e : ServerEvent} (hq : q ≠ c.partyId)
    (hlocal : Local (InParty s q) j s (serverStep s e)) (hj : Touchable s q j) :
    Sits (serverStep s e) policy c := by
  have hout : ¬ InParty s q c.id := fun hin =>
    hq (Option.some.inj (hin.symm.trans h.ready.inParty))
  have helse : ∀ {i state}, s.instanceManager.getInstance i = some ⟨i, c.partyId, state⟩ →
      i ≠ j := fun hi heq => hq (hj _ (heq ▸ hi)).symm
  obtain ⟨session, hsession, hopen⟩ := h.ready.session
  refine ⟨h.ready.step hlocal ((hlocal.heap _ hout).trans hsession) hopen, h.versions, h.grantable,
    ?_⟩
  have hexpects := h.expects
  unfold Expects at hexpects ⊢
  split at hexpects
  · trivial
  · exact hexpects
  · obtain ⟨hlength, hinst, hticket⟩ := hexpects
    exact ⟨hlength, (hlocal.instances _ (helse hinst)).trans hinst,
      (hlocal.tickets _ (helse hinst)).trans hticket⟩
  · obtain ⟨hinst, hchar, hbound⟩ := hexpects
    exact ⟨(hlocal.instances _ (helse hinst)).trans hinst,
      (hlocal.characters _ hout).trans hchar, (hlocal.bound _ hout).trans hbound⟩
  · obtain ⟨hinst, hchar, hbound⟩ := hexpects
    exact ⟨(hlocal.instances _ (helse hinst)).trans hinst,
      (hlocal.characters _ hout).trans hchar, (hlocal.bound _ hout).trans hbound⟩

/-- What a client goes on as, once it is known. -/
theorem Goes.of_learn {e : ServerEvent} (c' : Client) (hlearn : c.learn (s.answerTo e) = c')
    (hsucceeds : Succeeds s e) (hpaid : s.deposited e = c.due)
    (hsits : Sits (serverStep s e) policy c') (hleft : c'.left + 1 = c.left)
    (htodo : c.todo.map Expedition.deposit = c.due.toList ++ c'.todo.map Expedition.deposit)
    (hlocal : Local (InParty s c.partyId) j s (serverStep s e)) (hj : Touchable s c.partyId j) :
    Goes s policy c e := by
  subst hlearn
  exact ⟨hsucceeds, hpaid, hsits, hleft, htodo, j, hlocal, hj⟩

theorem succeeds_of_answer {type : PacketType} {stamp : Stamp} {body : Bytes} {answer : Answer}
    (h : s.answerTo (clientPacket policy id type stamp body) = some answer)
    (hsuccess : answer.success = true) :
    Succeeds s (clientPacket policy id type stamp body) := by
  show succeeded (s.answerTo _) = true
  rw [h]
  exact hsuccess

omit [InventoryStorage σ] in
theorem touchable_of_instance {state : InstanceState} {i : ℕ}
    (h : s.instanceManager.getInstance j = some ⟨i, partyId, state⟩) : Touchable s partyId j :=
  fun _ hr => Option.some.inj (h.symm.trans hr) ▸ rfl

variable {x : Expedition} {xs : List Expedition} {i : UInt64} {ticket : Str}

theorem Sits.asks (h : Sits s policy ⟨id, partyId, x :: xs, .home⟩)
    (hlt : s.instanceManager.nextInstanceId < 2 ^ 64) :
    Goes s policy ⟨id, partyId, x :: xs, .home⟩
      (clientPacket policy id .matchReq x.asking (encodeMatchRequest {})) := by
  have hversion := h.versions x List.mem_cons_self x.asking (by simp [Expedition.stamps])
  obtain ⟨hlocal, hnext, hnone, notify, hfound, hmatched, hid, hlength, hwaiting, hticket⟩ :=
    h.ready.match_step hversion
  have htoNat : notify.instanceId.toNat = s.instanceManager.nextInstanceId := by
    rw [hid, UInt64.toNat_ofNat_of_lt' hlt]
  rw [← htoNat] at hwaiting hticket
  refine Goes.of_learn ⟨id, partyId, x :: xs, .told notify.instanceId notify.ticket⟩ ?_
    (succeeds_of_answer hfound hmatched) hnone
    ⟨hnext, h.versions, h.grantable, hlength, hwaiting, hticket⟩ ?_ rfl hlocal ?_
  · rw [hfound]
    rfl
  · simp only [Client.left, Stage.rank, List.length_cons]
    omega
  · exact fun record hr => absurd
      (h.ready.idle.below _ ((Dict.mem_iff _ _).mpr ⟨record, hr⟩)) (Nat.lt_irrefl _)

theorem Sits.enters (h : Sits s policy ⟨id, partyId, x :: xs, .told i ticket⟩) :
    Goes s policy ⟨id, partyId, x :: xs, .told i ticket⟩
      (clientPacket policy id .dungeonEnterReq x.entering
        (encodeDungeonEnterRequest ⟨i, ticket, x.charId⟩)) := by
  have hversion := h.versions x List.mem_cons_self x.entering (by simp [Expedition.stamps])
  obtain ⟨hlength, hinst, hticket⟩ := h.expects
  obtain ⟨hlocal, hnext, hnone, response, hentered, hin, hready, hchar, hbound⟩ :=
    h.ready.enter_step hversion hlength hinst hticket x.charId
  refine Goes.of_learn ⟨id, partyId, x :: xs, .inside i⟩ ?_ (succeeds_of_answer hentered hin) hnone
    ⟨hnext, h.versions, h.grantable, hready, hchar, hbound⟩ ?_ rfl hlocal
    (touchable_of_instance hinst)
  · rw [hentered]
    exact if_pos hin
  · simp only [Client.left, Stage.rank, List.length_cons]
    omega

theorem Sits.plays (h : Sits s policy ⟨id, partyId, x :: xs, .inside i⟩) :
    Goes s policy ⟨id, partyId, x :: xs, .inside i⟩
      (.inst (.requestTransition i.toNat .playing)) := by
  obtain ⟨hinst, hchar, hbound⟩ := h.expects
  obtain ⟨hlocal, hnext, hplays, hplaying, hchars, hbounds⟩ := h.ready.play_step hinst
  refine Goes.of_learn ⟨id, partyId, x :: xs, .playing i⟩ rfl hplays rfl
    ⟨hnext, h.versions, h.grantable, hplaying, hchars ▸ hchar, hbounds ▸ hbound⟩ ?_ rfl hlocal
    (touchable_of_instance hinst)
  simp only [Client.left, Stage.rank, List.length_cons]
  omega

theorem Sits.reports [TableBacked σ] (h : Sits s policy ⟨id, partyId, x :: xs, .playing i⟩) :
    Goes s policy ⟨id, partyId, x :: xs, .playing i⟩
      (clientPacket policy id .dungeonResultNotify x.reporting
        (encodeDungeonResultNotify x.report)) := by
  have hversion := h.versions x List.mem_cons_self x.reporting (by simp [Expedition.stamps])
  obtain ⟨hinst, hchar, hbound⟩ := h.expects
  have hready : Ready s policy id partyId
      (x.reporting :: Client.stamps ⟨id, partyId, xs, .home⟩) := by
    cases xs with
    | nil => exact h.ready
    | cons y ys => exact h.ready
  obtain ⟨hlocal, hnext, hpaid, response, hreported, hin⟩ :=
    hready.report_step hversion hinst hchar hbound (h.grantable x List.mem_cons_self)
  have hexpects : Expects (serverStep s (clientPacket policy id .dungeonResultNotify x.reporting
      (encodeDungeonResultNotify x.report))) ⟨id, partyId, xs, .home⟩ := by
    cases xs <;> trivial
  refine Goes.of_learn ⟨id, partyId, xs, .home⟩ ?_ (succeeds_of_answer hreported hin) hpaid
    ⟨hnext, (List.forall_mem_cons.mp h.versions).2, (List.forall_mem_cons.mp h.grantable).2,
      hexpects⟩ ?_ rfl hlocal (touchable_of_instance hinst)
  · rw [hreported]
    exact if_pos hin
  · simp only [Client.left, Stage.rank, List.length_cons]
    omega

/-- A client that can go on is not refused what it asks for. -/
theorem Sits.goes [TableBacked σ] (h : Sits s policy c) {e : ServerEvent}
    (he : c.act policy = some e) (hlt : s.instanceManager.nextInstanceId < 2 ^ 64) :
    Goes s policy c e := by
  obtain ⟨id, partyId, todo, stage⟩ := c
  cases todo with
  | nil => cases he
  | cons x xs =>
    cases stage with
    | home =>
      obtain rfl := Option.some.inj he
      exact h.asks hlt
    | told i ticket =>
      obtain rfl := Option.some.inj he
      exact h.enters
    | inside i =>
      obtain rfl := Option.some.inj he
      exact h.plays
    | playing i =>
      obtain rfl := Option.some.inj he
      exact h.reports

end Turns

theorem deposits_cons (s : Server σ) (e : ServerEvent) (es : List ServerEvent) :
    s.deposits (e :: es) = (s.deposited e).toList ++ (serverStep s e).deposits es :=
  filterMap_trail_cons ..

theorem counted_depositsTo (charId : UInt64) (item : ItemId) : ∀ ds : List Deposit,
    counted ((depositsTo charId ds).flatMap Deposit.items) item =
      (ds.map fun d => if d.charId = charId then counted d.items item else 0).sum
  | [] => rfl
  | d :: ds => by
    rw [depositsTo_cons, List.map_cons, List.sum_cons, ← counted_depositsTo charId item ds]
    split_ifs
    · rw [List.flatMap_cons, counted_append]
    · rw [Nat.zero_add]

/-- A sum over a list is one over what each has in it. -/
theorem sum_apart {ι β : Type*} [Fintype ι] [DecidableEq ι] (f : β → ℕ) : ∀ l : List (ι × β),
    ((l.map Prod.snd).map f).sum =
      ∑ k, (((l.filter fun y => y.1 = k).map Prod.snd).map f).sum
  | [] => by simp
  | y :: l => by
    have hone : ∀ k, ((((y :: l).filter fun y => y.1 = k).map Prod.snd).map f).sum =
        (if y.1 = k then f y.2 else 0) +
          (((l.filter fun y => y.1 = k).map Prod.snd).map f).sum := by
      intro k
      by_cases h : y.1 = k <;> simp [h]
    simp only [hone, Finset.sum_add_distrib, Finset.sum_ite_eq, Finset.mem_univ, if_true,
      List.map_cons, List.sum_cons, sum_apart f l]

section Schedule

variable {ι : Type*} [DecidableEq ι] {w : Server σ × (ι → Client)}

/-- One of the clients acts, if it has something to do, and learns how that was answered. -/
def turn (w : Server σ × (ι → Client)) (k : ι) : Server σ × (ι → Client) :=
  match (w.2 k).act w.1.securityPolicy with
  | none => w
  | some e => (serverStep w.1 e, Function.update w.2 k ((w.2 k).learn (w.1.answerTo e)))

/-- What the server sees of the clients taking turns. -/
def acts (w : Server σ × (ι → Client)) (ks : List ι) : List ServerEvent :=
  (trail turn w ks).filterMap fun y => (y.1.2 y.2).act y.1.1.securityPolicy

/-- What the clients report, and who does. -/
def reports (w : Server σ × (ι → Client)) (ks : List ι) : List (ι × Deposit) :=
  (trail turn w ks).filterMap fun y => (y.1.2 y.2).due.map (y.2, ·)

/-- What one of the clients reports. -/
def reportsOf (k : ι) (w : Server σ × (ι → Client)) (ks : List ι) : List Deposit :=
  ((reports w ks).filter fun y => y.1 = k).map Prod.snd

/-- The clients are of different parties, and can go on. -/
structure Gathered (w : Server σ × (ι → Client)) (policy : SecurityPolicy) : Prop where
  apart : Function.Injective fun k => (w.2 k).partyId
  sits : ∀ k, Sits w.1 policy (w.2 k)

theorem turn_of_done {k : ι} (he : (w.2 k).act w.1.securityPolicy = none) : turn w k = w := by
  unfold turn
  rw [he]

theorem turn_fst {k : ι} {e : ServerEvent} (he : (w.2 k).act w.1.securityPolicy = some e) :
    (turn w k).1 = serverStep w.1 e := by
  unfold turn
  rw [he]

theorem turn_self {k : ι} {e : ServerEvent} (he : (w.2 k).act w.1.securityPolicy = some e) :
    (turn w k).2 k = (w.2 k).learn (w.1.answerTo e) := by
  unfold turn
  rw [he]
  exact Function.update_self ..

theorem turn_of_ne {k k' : ι} (h : k' ≠ k) : (turn w k).2 k' = w.2 k' := by
  unfold turn
  split
  · rfl
  · exact Function.update_of_ne h ..

omit [DecidableEq ι] in
theorem Gathered.goes [TableBacked σ] (h : Gathered w policy) {k : ι} {e : ServerEvent}
    (hlt : w.1.instanceManager.nextInstanceId < 2 ^ 64)
    (he : (w.2 k).act w.1.securityPolicy = some e) : Goes w.1 policy (w.2 k) e :=
  (h.sits k).goes ((h.sits k).ready.checks ▸ he) hlt

/-- Turns leave the clients of different parties, and able to go on. -/
theorem Gathered.keep [TableBacked σ] (h : Gathered w policy) (k : ι)
    (hlt : w.1.instanceManager.nextInstanceId < 2 ^ 64) :
    Gathered (turn w k) policy ∧ (turn w k).1.instanceManager.nextInstanceId ≤
      w.1.instanceManager.nextInstanceId + 1 := by
  rcases he : (w.2 k).act w.1.securityPolicy with - | e
  · rw [turn_of_done he]
    exact ⟨h, Nat.le_succ _⟩
  · have hgoes := h.goes hlt he
    obtain ⟨j, hlocal, hj⟩ := hgoes.here
    refine ⟨⟨?_, fun k' => ?_⟩, ?_⟩
    · have hsame : (fun k' => ((turn w k).2 k').partyId) = fun k' => (w.2 k').partyId := by
        funext k'
        rcases eq_or_ne k' k with rfl | hne
        · rw [turn_self he, Client.learn_partyId]
        · rw [turn_of_ne hne]
      exact hsame ▸ h.apart
    · rw [turn_fst he]
      rcases eq_or_ne k' k with rfl | hne
      · rw [turn_self he]
        exact hgoes.sits
      · rw [turn_of_ne hne]
        exact (h.sits k').aside (fun heq => hne (h.apart heq.symm)) hlocal hj
    · rw [turn_fst he]
      exact hlocal.next

theorem acts_cons (k : ι) (ks : List ι) (w : Server σ × (ι → Client)) :
    acts w (k :: ks) = ((w.2 k).act w.1.securityPolicy).toList ++ acts (turn w k) ks :=
  filterMap_trail_cons ..

theorem reports_cons (k : ι) (ks : List ι) (w : Server σ × (ι → Client)) :
    reports w (k :: ks) = ((w.2 k).due.map (k, ·)).toList ++ reports (turn w k) ks :=
  filterMap_trail_cons ..

theorem reportsOf_cons (k' k : ι) (ks : List ι) (w : Server σ × (ι → Client)) :
    reportsOf k' w (k :: ks) =
      (if k = k' then (w.2 k).due.toList else []) ++ reportsOf k' (turn w k) ks := by
  unfold reportsOf
  rw [reports_cons, List.filter_append, List.map_append]
  congr 1
  rcases (w.2 k).due with - | d
  · simp
  · by_cases h : k = k' <;> simp [h]

/-- The server is sent what the clients send. -/
theorem after_acts : ∀ (ks : List ι) (w : Server σ × (ι → Client)),
    after serverStep w.1 (acts w ks) = (after turn w ks).1
  | [], _ => rfl
  | k :: ks, w => by
    rw [acts_cons, after_append, after_cons, ← after_acts ks (turn w k)]
    rcases he : (w.2 k).act w.1.securityPolicy with - | e
    · rw [turn_of_done he]
      rfl
    · rw [turn_fst he]
      rfl

variable [TableBacked σ]

/-- However the clients take turns, nobody is refused, the deposits are what they report, and
every turn brings its client closer to the end of its list. -/
theorem Gathered.run : ∀ (ks : List ι) {w : Server σ × (ι → Client)}, Gathered w policy →
    w.1.instanceManager.nextInstanceId + ks.length ≤ 2 ^ 64 →
    (∀ y ∈ trail serverStep w.1 (acts w ks), Succeeds y.1 y.2) ∧
    w.1.deposits (acts w ks) = (reports w ks).map Prod.snd ∧
    ∀ k, reportsOf k w ks ++ ((after turn w ks).2 k).todo.map Expedition.deposit =
        (w.2 k).todo.map Expedition.deposit ∧
      ((after turn w ks).2 k).left = (w.2 k).left - ks.count k
  | [], w, _, _ => ⟨by simp [acts, trail], rfl, fun k => ⟨rfl, rfl⟩⟩
  | k :: ks, w, h, hroom => by
    rw [List.length_cons] at hroom
    obtain ⟨hnext, hid⟩ := h.keep k (by omega)
    obtain ⟨hall, hdeposits, hclients⟩ := Gathered.run ks hnext (by omega)
    rw [acts_cons, reports_cons]
    simp only [after_cons, reportsOf_cons]
    rcases he : (w.2 k).act w.1.securityPolicy with - | e
    · rw [turn_of_done he] at hall hdeposits hclients ⊢
      rw [Client.due_of_done he]
      refine ⟨hall, hdeposits, fun k' => ?_⟩
      obtain ⟨hreports, hleft⟩ := hclients k'
      refine ⟨by simpa using hreports, ?_⟩
      rcases eq_or_ne k k' with rfl | hne
      · have hdone : (w.2 k).left = 0 := by simp [Client.left, Client.todo_of_done he]
        rw [hleft, hdone, Nat.zero_sub, Nat.zero_sub]
      · rw [hleft, List.count_cons_of_ne hne]
    · have hgoes := h.goes (by omega) he
      rw [turn_fst he] at hall hdeposits
      refine ⟨?_, ?_, fun k' => ?_⟩
      · exact List.forall_mem_cons.mpr ⟨hgoes.succeeds, hall⟩
      · rw [Option.toList_some, List.singleton_append, deposits_cons, hgoes.paid, hdeposits,
          List.map_append]
        congr 1
        rcases (w.2 k).due with - | d <;> rfl
      · obtain ⟨hreports, hleft⟩ := hclients k'
        rcases eq_or_ne k k' with rfl | hne
        · rw [turn_self he] at hreports hleft
          refine ⟨?_, ?_⟩
          · rw [if_pos rfl, List.append_assoc, hreports, hgoes.todo]
          · have hone := hgoes.left
            rw [hleft, List.count_cons_self]
            omega
        · rw [turn_of_ne hne.symm] at hreports hleft
          rw [if_neg hne, List.nil_append, List.count_cons_of_ne hne]
          exact ⟨hreports, hleft⟩

/-- What the characters get is what is reported. -/
theorem Gathered.pays {ks : List ι} (h : Gathered w policy)
    (hordered : TableBacked.Ordered w.1.inventoryStorage)
    (hroom : w.1.instanceManager.nextInstanceId + ks.length ≤ 2 ^ 64) (charId : UInt64) :
    (InventoryStorage.changeLog (after turn w ks).1.inventoryStorage charId).map unnumbered =
      (InventoryStorage.changeLog w.1.inventoryStorage charId).map unnumbered ++
        (depositsTo charId ((reports w ks).map Prod.snd)).flatMap Deposit.lines ∧
    ∀ item, (quantities
        ((TableBacked.content (after turn w ks).1.inventoryStorage).itemsOf charId) item).toNat =
      ((quantities ((TableBacked.content w.1.inventoryStorage).itemsOf charId) item).toNat +
        counted ((depositsTo charId ((reports w ks).map Prod.snd)).flatMap Deposit.items) item) %
          2 ^ 32 := by
  obtain ⟨-, hdeposits, -⟩ := h.run ks hroom
  obtain ⟨hfull, hcontent⟩ := content_run hordered (acts w ks)
  rw [hdeposits] at hfull hcontent
  rw [← after_acts ks w]
  refine ⟨?_, fun item => ?_⟩
  · obtain ⟨new, hnew, hlines⟩ := log_deposits charId
      (c := TableBacked.content w.1.inventoryStorage) hfull
    rw [TableBacked.changeLog_eq, TableBacked.changeLog_eq, ← hlines, ← List.map_append]
    exact congrArg _ ((congrArg (TableContent.log · charId) hcontent).trans hnew)
  · rw [hcontent]
    exact held_deposits charId item hfull

/-- Members of different parties of at most five, whose sessions have a user and take their stamps,
with expeditions that are paid what can be granted. -/
structure Assembled (s : Server σ) (clients : ι → Client) : Prop where
  apart : Function.Injective fun k => (clients k).partyId
  home : ∀ k, (clients k).stage = .home
  party : ∀ k, ∃ info, s.partyService.getPartyInfo (clients k).partyId = some info ∧
    (∃ member ∈ info.members, member.sessionId = (clients k).id) ∧ info.members.length ≤ 5
  session : ∀ k, ∃ session, s.heap[(clients k).id]? = some session ∧
    Open s.securityPolicy (clients k).stamps session
  versions : ∀ k, ∀ x ∈ (clients k).todo, ∀ stamp ∈ x.stamps, stamp.Supported
  grantable : ∀ k, ∀ x ∈ (clients k).todo, Grantable x.report.rewards

variable {inventoryStorage : σ} {securityPolicy : SecurityPolicy} {tokenBytes : Draws UInt8}
  {seeds : Draws { n : UInt32 // n ≠ 0 }} {ticketBytes : Draws UInt8} {clock : Draws Time}

omit [DecidableEq ι] [TableBacked σ] in
/-- In a state that a run has led to, they can set out. -/
theorem Assembled.gathered {es : List ServerEvent} {clients : ι → Client}
    (hes : s = after serverStep
      (Server.new inventoryStorage securityPolicy tokenBytes seeds ticketBytes clock) es)
    (h : Assembled s clients) : Gathered (s, clients) s.securityPolicy := by
  obtain ⟨hidle, hbookings⟩ := (idle_new inventoryStorage securityPolicy tokenBytes seeds
    ticketBytes clock).run_bookings es
  rw [← hes] at hidle hbookings
  refine ⟨h.apart, fun k => ⟨⟨rfl, hidle, (hbookings.keep (balanced_new ..)).1, h.party k,
    h.session k⟩, h.versions k, h.grantable k, ?_⟩⟩
  show Expects s (clients k)
  unfold Expects
  rw [h.home k]
  trivial

theorem ordered_run {es : List ServerEvent} (hstorage : TableBacked.Ordered inventoryStorage)
    (hes : s = after serverStep
      (Server.new inventoryStorage securityPolicy tokenBytes seeds ticketBytes clock) es) :
    TableBacked.Ordered s.inventoryStorage := by
  rw [hes]
  exact stable (I := fun s : Server σ => TableBacked.Ordered s.inventoryStorage)
    (fun _ e h => step_ordered h e) es hstorage

omit [TableBacked σ] [InventoryStorage σ] in
/-- Four turns are enough for an expedition. -/
theorem todo_of_count {c c' : Client} {k : ι} {ks : List ι} (hhome : c.stage = .home)
    (hleft : c'.left = c.left - ks.count k) (hturns : 4 * c.todo.length ≤ ks.count k) :
    c'.todo = [] := by
  refine Client.todo_of_left ?_
  have hall : c.left = 4 * c.todo.length := by simp [Client.left, hhome, Stage.rank]
  omega

/-- Whatever has happened to a server, clients that are assembled can take turns in any order:
nothing that they ask for is refused, four turns are enough for an expedition, and the characters
get what is reported and nothing else. -/
theorem expeditions_succeed (inventoryStorage : σ)
    (hstorage : TableBacked.Ordered inventoryStorage) (securityPolicy : SecurityPolicy)
    (tokenBytes : Draws UInt8) (seeds : Draws { n : UInt32 // n ≠ 0 }) (ticketBytes : Draws UInt8)
    (clock : Draws Time) (es : List ServerEvent) (s : Server σ)
    (hes : s = after serverStep
      (Server.new inventoryStorage securityPolicy tokenBytes seeds ticketBytes clock) es)
    (clients : ι → Client) (hclients : Assembled s clients) (ks : List ι)
    (hroom : s.instanceManager.nextInstanceId + ks.length ≤ 2 ^ 64) :
    let w : Server σ × (ι → Client) := (s, clients)
    let w' := after turn w ks
    (∀ y ∈ trail serverStep s (acts w ks), Succeeds y.1 y.2) ∧
    (∀ k, reportsOf k w ks ++ (w'.2 k).todo.map Expedition.deposit =
        (clients k).todo.map Expedition.deposit ∧
      (4 * (clients k).todo.length ≤ ks.count k → (w'.2 k).todo = [])) ∧
    ∀ charId : UInt64,
      (InventoryStorage.changeLog w'.1.inventoryStorage charId).map unnumbered =
        (InventoryStorage.changeLog s.inventoryStorage charId).map unnumbered ++
          (depositsTo charId ((reports w ks).map Prod.snd)).flatMap Deposit.lines ∧
      ∀ item,
        (quantities ((TableBacked.content w'.1.inventoryStorage).itemsOf charId) item).toNat =
        ((quantities ((TableBacked.content s.inventoryStorage).itemsOf charId) item).toNat +
          counted ((depositsTo charId ((reports w ks).map Prod.snd)).flatMap Deposit.items) item) %
            2 ^ 32 := by
  intro w w'
  have hgathered := hclients.gathered hes
  obtain ⟨hall, -, hturns⟩ := hgathered.run ks hroom
  refine ⟨hall, fun k => ⟨(hturns k).1, ?_⟩, hgathered.pays (ordered_run hstorage hes) hroom⟩
  exact todo_of_count (hclients.home k) (hturns k).2

/-- In whatever order the clients take turns, once all of them are done each character holds what it
held at first and what all of its expeditions pay. -/
theorem expeditions_agree [Fintype ι] (inventoryStorage : σ)
    (hstorage : TableBacked.Ordered inventoryStorage) (securityPolicy : SecurityPolicy)
    (tokenBytes : Draws UInt8) (seeds : Draws { n : UInt32 // n ≠ 0 }) (ticketBytes : Draws UInt8)
    (clock : Draws Time) (es : List ServerEvent) (s : Server σ)
    (hes : s = after serverStep
      (Server.new inventoryStorage securityPolicy tokenBytes seeds ticketBytes clock) es)
    (clients : ι → Client) (hclients : Assembled s clients) (ks : List ι)
    (hroom : s.instanceManager.nextInstanceId + ks.length ≤ 2 ^ 64)
    (hturns : ∀ k, 4 * (clients k).todo.length ≤ ks.count k) (charId : UInt64) (item : ItemId) :
    (quantities ((TableBacked.content
        (after turn (s, clients) ks).1.inventoryStorage).itemsOf charId) item).toNat =
      ((quantities ((TableBacked.content s.inventoryStorage).itemsOf charId) item).toNat +
        ∑ k, counted ((depositsTo charId ((clients k).todo.map Expedition.deposit)).flatMap
          Deposit.items) item) % 2 ^ 32 := by
  have hgathered := hclients.gathered hes
  obtain ⟨-, -, hrun⟩ := hgathered.run ks hroom
  have hdone : ∀ k, reportsOf k (s, clients) ks = (clients k).todo.map Expedition.deposit := by
    intro k
    have hall := (hrun k).1
    rwa [todo_of_count (hclients.home k) (hrun k).2 (hturns k), List.map_nil,
      List.append_nil] at hall
  rw [(hgathered.pays (ordered_run hstorage hes) hroom charId).2 item, counted_depositsTo,
    sum_apart]
  refine congrArg (fun n => (_ + n) % _) (Finset.sum_congr rfl fun k _ => ?_)
  rw [counted_depositsTo, ← hdone k]
  rfl

/-- Packets are signed, and replays are refused. -/
def strict : SecurityPolicy := { requireHmac := true, enableReplayProtection := true }

/-- The stamp with the number. -/
def numbered (n : UInt32) : Stamp := ⟨n, n.toUInt64, kMinProtocolVersion, 0⟩

/-- A user logs in with a signed packet and makes a party. -/
def signedIn (id : ℕ) (user : Str) : List ServerEvent :=
  [.createSession {} 0,
    clientPacket strict id .loginReq (numbered 1) (encodeLoginRequest ⟨user, str "letmein"⟩),
    .party (.createParty id user)]

/-- One of them goes twice and fails the second time, the other once, with the same character. -/
def players : Bool → Client
  | true => ⟨1, 1, [⟨7, { rewards := [⟨1, 2⟩] }, numbered 2, numbered 3, numbered 4⟩,
      ⟨7, { result := .fail, rewards := [⟨1, 3⟩] }, numbered 5, numbered 6, numbered 7⟩], .home⟩
  | false => ⟨2, 2, [⟨7, { rewards := [⟨4, 1⟩] }, numbered 2, numbered 3, numbered 4⟩], .home⟩

/-- The order that they take turns in. -/
def schedule : List Bool :=
  [true, false, true, false, false, true, true, true, true, false, true, true]

theorem assembled_players : Assembled (after serverStep (still strict)
    (signedIn 1 (str "u") ++ signedIn 2 (str "v"))) players where
  apart := by decide
  home k := by cases k <;> rfl
  party
    | true => ⟨⟨1, 1, [⟨1, str "u"⟩]⟩, by decide +kernel, by decide, by decide⟩
    | false => ⟨⟨2, 2, [⟨2, str "v"⟩]⟩, by decide +kernel, by decide, by decide⟩
  session k := by
    have hkept : ∀ k, (after serverStep (still strict)
        (signedIn 1 (str "u") ++ signedIn 2 (str "v"))).heap[(players k).id]?.map
          (fun session => (session.userContext.isSome, session.lastSeq, session.nonceCache.keys)) =
            some (true, 1, [1]) := by decide +kernel
    obtain ⟨session, hsession, hkept⟩ := Option.map_eq_some_iff.mp (hkept k)
    obtain ⟨huser, hlast, hcache⟩ : session.userContext.isSome ∧ session.lastSeq = 1 ∧
      session.nonceCache.keys = [1] := by simpa using hkept
    refine ⟨session, hsession, huser, fun h => absurd h (by decide +kernel), fun _ => ?_⟩
    refine ⟨?_, ?_, fun stamp hstamp hmem => ?_⟩
    · rw [hlast]
      cases k <;> decide
    · cases k <;> decide
    · rw [← Std.ExtTreeMap.mem_keys, hcache] at hmem
      revert stamp
      cases k <;> decide
  versions := by decide
  grantable := by decide

theorem expeditions_succeed_players :
    reportsOf true (after serverStep (still strict) (signedIn 1 (str "u") ++ signedIn 2 (str "v")),
        players) schedule =
      [⟨7, str "dungeon_reward", [⟨1, 2⟩]⟩, ⟨7, str "dungeon_reward", [⟨1, 3⟩]⟩] := by
  obtain ⟨-, hclients, -⟩ := expeditions_succeed defaultStorage (defaultStorage_ordered [])
    _ _ _ _ _ (signedIn 1 (str "u") ++ signedIn 2 (str "v")) _ rfl players assembled_players
    schedule (by decide +kernel)
  obtain ⟨hreports, hdone⟩ := hclients true
  rw [hdone (by decide), List.map_nil, List.append_nil] at hreports
  exact hreports.trans (by decide)

theorem expeditions_agree_players :
    (quantities ((TableBacked.content (after turn (after serverStep (still strict)
      (signedIn 1 (str "u") ++ signedIn 2 (str "v")), players)
        schedule).1.inventoryStorage).itemsOf 7) 1).toNat = 5 := by
  have hpaid := expeditions_agree defaultStorage (defaultStorage_ordered []) strict (fun _ => 0)
    (fun _ => ⟨1, by decide⟩) (fun _ => 0) (fun _ => 0)
    _ (after serverStep (still strict) (signedIn 1 (str "u") ++ signedIn 2 (str "v"))) rfl players
    assembled_players schedule (by decide +kernel) (by decide) 7 1
  rw [hpaid]
  decide +kernel

end Schedule

end Server

end DungeonHub
