import TurbineProxy.ConfigInStep
import TurbineProxy.Threads

/-!
# Cluster sync

A reload on one node pushes the text of its configuration file to its peers, in a task of its own for every
reload. A peer applies the backends in it, and leaves its rules alone. `peers_agree` says in which runs the
peers that have answered a push with success run what the sender runs, once all pushes have arrived.
-/

namespace TurbineProxy.Config

/-! ## Nodes -/

/-- What a node runs. -/
structure ClusterNode where
  ruleEngine : RuleEngine
  rewriter : Rewriter
  /-- the addresses of the backends in the router's pool -/
  pool : List Str

/-- The status of the answer to a push. -/
inductive SyncAnswer : Type where
  /-- `OK` -/
  | ok
  /-- `BAD_REQUEST` -/
  | badRequest
  /-- `UNAUTHORIZED` -/
  | unauthorized
  /-- `SERVICE_UNAVAILABLE` -/
  | unavailable
  deriving DecidableEq

/-- A peer: what it runs, its own `cluster.secret`, and what it has answered, the latest first. -/
structure ClusterPeer where
  node : ClusterNode
  secret : Str
  answers : List SyncAnswer

/-- It has answered a push with success. -/
def ClusterPeer.Succeeded (p : ClusterPeer) : Prop := .ok ∈ p.answers

instance (p : ClusterPeer) : Decidable p.Succeeded := inferInstanceAs (Decidable (_ ∈ _))

/-- `ClusterConfig`; peers are the numbers of the nodes that the URLs lead to. -/
structure ClusterConfig where
  peers : List Nat
  secret : Str

/-- A push that was sent to a peer. -/
structure SyncMessage where
  peer : Nat
  /-- the bearer token -/
  secret : Str
  configToml : Str

/-- The sender, its peers, and the pushes in flight, the oldest first. -/
structure ClusterWorld where
  sender : ClusterNode
  cluster : ClusterConfig
  peers : Nat → ClusterPeer
  inFlight : List SyncMessage

/-- What happens: a reload of each kind that succeeds, with the texts that its reads of the file return,
the last of them to be pushed; or a push in flight arrives. -/
inductive ClusterEvent where
  /-- `POST /api/query-rules/reload` -/
  | reloadRules (file : Str)
  /-- `SIGHUP` -/
  | sighup (file rewriteFile : Str)
  /-- `POST /api/reload` -/
  | reloadConfig (file rewriteFile pushed : Str)
  /-- `POST /api/reload/backends` -/
  | reloadBackends (file pushed : Str)
  /-- `POST /api/sync` at a peer -/
  | deliver (k : Nat)

section Sync

variable {Rest PgRest : Type}

/-- The addresses of the primary and the replicas. -/
def ProxyConfig.addrs (cfg : ProxyConfig Rest PgRest) : List Str :=
  cfg.primary.addr :: cfg.replicas.map BackendConfig.addr

variable (pf : Platform Rest PgRest)

/-! ## The sender -/

/-- What `RuleEngine::reload_from_file` makes of the file. -/
def loadRules (file : Str) : Option RuleEngine := do
  let cfg ← ProxyConfig.fromStr pf.serde pf.toml file
  compileRules pf.regex cfg.queryRules

/-- What `Rewriter::reload_from_file` makes of the file. -/
def loadRewriteRules (file : Str) : Option Rewriter := do
  let cfg ← ProxyConfig.fromStr pf.serde pf.toml file
  compileRewriteRules pf.regex cfg.rewriteRules

/-- The backends a place of the dashboard finds in a text. -/
def loadBackends (reader : Reader) (text : Str) : Option (List Str) := do
  let cfg ← reader.read pf.serde pf.toml text
  some cfg.addrs

/-- `push_config_to_peers` -/
def ClusterConfig.push (cluster : ClusterConfig) (configToml : Str) : List SyncMessage :=
  if cluster.peers.isEmpty || cluster.secret.isEmpty then []
  else cluster.peers.map fun peer => ⟨peer, cluster.secret, configToml⟩

/-! ## The receiver -/

/-- `cluster_sync`: the rules in the text are not applied. -/
def ClusterPeer.clusterSync (p : ClusterPeer) (m : SyncMessage) : ClusterPeer :=
  if p.secret.isEmpty then { p with answers := .unavailable :: p.answers }
  else if m.secret ≠ p.secret then { p with answers := .unauthorized :: p.answers }
  else
    match loadBackends pf .clusterSync m.configToml with
    | none => { p with answers := .badRequest :: p.answers }
    | some addrs => { p with node := { p.node with pool := addrs }, answers := .ok :: p.answers }

/-! ## Runs -/

namespace ClusterWorld

/-- Perform an event. -/
def step (w : ClusterWorld) : ClusterEvent → Option ClusterWorld
  | .reloadRules file => do
    let ruleEngine ← loadRules pf file
    some { w with sender := { w.sender with ruleEngine } }
  | .sighup file rewriteFile => do
    let ruleEngine ← loadRules pf file
    let rewriter ← loadRewriteRules pf rewriteFile
    some { w with sender := { w.sender with ruleEngine, rewriter } }
  | .reloadConfig file rewriteFile pushed => do
    let ruleEngine ← loadRules pf file
    let rewriter ← loadRewriteRules pf rewriteFile
    some { w with
      sender := { w.sender with ruleEngine, rewriter }
      inFlight := w.inFlight ++ w.cluster.push pushed }
  | .reloadBackends file pushed => do
    let pool ← loadBackends pf .reloadBackends file
    some { w with
      sender := { w.sender with pool }
      inFlight := w.inFlight ++ w.cluster.push pushed }
  | .deliver k => do
    let m ← w.inFlight[k]?
    some { w with
      peers := Function.update w.peers m.peer ((w.peers m.peer).clusterSync pf m)
      inFlight := w.inFlight.eraseIdx k }

/-- No push was sent yet. -/
structure Fresh (w : ClusterWorld) : Prop where
  inFlight : w.inFlight = []
  answers : ∀ i, (w.peers i).answers = []

/-- Once all pushes have arrived, the peers that have answered with success run what the sender runs. -/
def Agreed (w : ClusterWorld) : Prop :=
  w.inFlight = [] → ∀ i, (w.peers i).Succeeded → (w.peers i).node = w.sender

/-- A peer whose secret is the sender's. -/
structure Listens (w : ClusterWorld) (i : Nat) : Prop where
  peer : i ∈ w.cluster.peers
  enabled : w.cluster.secret ≠ []
  secret : (w.peers i).secret = w.cluster.secret

/-- The backends in the pushes that are in flight to a peer, as far as it can read them, the oldest first. -/
def pending (i : Nat) (messages : List SyncMessage) : List (List Str) :=
  messages.filterMap fun m => if m.peer = i then loadBackends pf .clusterSync m.configToml else none

/-- What is not pushed, or not applied, is what the peers have already; the backends that are pushed are the
sender's; and the newest push to a peer does not overtake an older one with other backends. -/
def Propagates (w : ClusterWorld) : ClusterEvent → Prop
  | .reloadRules file => ∀ i, (w.peers i).Succeeded → loadRules pf file = some (w.peers i).node.ruleEngine
  | .sighup file rewriteFile => ∀ i, (w.peers i).Succeeded →
    loadRules pf file = some (w.peers i).node.ruleEngine ∧
      loadRewriteRules pf rewriteFile = some (w.peers i).node.rewriter
  | .reloadConfig file rewriteFile pushed =>
    (∀ i, (w.peers i).Succeeded → loadRules pf file = some (w.peers i).node.ruleEngine ∧
      loadRewriteRules pf rewriteFile = some (w.peers i).node.rewriter) ∧
    ∀ i, w.Listens i → ∀ addrs, loadBackends pf .clusterSync pushed = some addrs → addrs = w.sender.pool
  | .reloadBackends file pushed => ∀ i, w.Listens i →
    loadBackends pf .clusterSync pushed = loadBackends pf .reloadBackends file ∨
      loadBackends pf .clusterSync pushed = none ∧ loadBackends pf .reloadBackends file = some w.sender.pool
  | .deliver k => ∀ m addrs, w.inFlight[k]? = some m → w.Listens m.peer →
    loadBackends pf .clusterSync m.configToml = some addrs →
      (w.peers m.peer).node.ruleEngine = w.sender.ruleEngine ∧
      (w.peers m.peer).node.rewriter = w.sender.rewriter ∧
      ∀ last, (pending pf m.peer (w.inFlight.eraseIdx k)).getLast? = some last →
        (pending pf m.peer w.inFlight).getLast? = some last

/-- The newest push in flight to a peer carries what the sender runs; where there is none, the peer runs
it. -/
structure Synced (w : ClusterWorld) : Prop where
  /-- where pushes come from and go to -/
  messages : ∀ m ∈ w.inFlight, m.peer ∈ w.cluster.peers ∧ w.cluster.secret ≠ [] ∧ m.secret = w.cluster.secret
  /-- who answers with success -/
  listens : ∀ i, (w.peers i).Succeeded → w.Listens i
  /-- query rules -/
  rules : ∀ i, (w.peers i).Succeeded → (w.peers i).node.ruleEngine = w.sender.ruleEngine
  /-- rewrite rules -/
  rewriteRules : ∀ i, (w.peers i).Succeeded → (w.peers i).node.rewriter = w.sender.rewriter
  /-- backends on their way -/
  newest : ∀ i, w.Listens i → ∀ addrs, (pending pf i w.inFlight).getLast? = some addrs → addrs = w.sender.pool
  /-- backends that have arrived -/
  arrived : ∀ i, (w.peers i).Succeeded → pending pf i w.inFlight = [] → (w.peers i).node.pool = w.sender.pool

variable {pf} {w w' : ClusterWorld} {i k : Nat} {m : SyncMessage} {addrs : List Str}

/-! ## Pushes in flight -/

theorem pending_append (l l' : List SyncMessage) : pending pf i (l ++ l') = pending pf i l ++ pending pf i l' :=
  List.filterMap_append

/-- A push sends its text to every peer under the secret, where there is one. -/
theorem mem_push {cluster : ClusterConfig} {pushed : Str} : m ∈ cluster.push pushed ↔
    cluster.secret ≠ [] ∧ m.peer ∈ cluster.peers ∧ m.secret = cluster.secret ∧ m.configToml = pushed := by
  rw [ClusterConfig.push]
  split
  · rename_i hoff
    refine iff_of_false List.not_mem_nil ?_
    rintro ⟨henabled, hpeer, -⟩
    rcases Bool.or_eq_true_iff.mp hoff with hnone | hempty
    · exact List.ne_nil_of_mem hpeer (List.isEmpty_iff.mp hnone)
    · exact henabled (List.isEmpty_iff.mp hempty)
  · rename_i hon
    rw [List.mem_map]
    constructor
    · rintro ⟨peer, hpeer, rfl⟩
      refine ⟨fun hempty => hon ?_, hpeer, rfl, rfl⟩
      rw [hempty]
      exact Bool.or_true _
    · rintro ⟨-, hpeer, hsecret, htoml⟩
      refine ⟨m.peer, hpeer, ?_⟩
      rw [← hsecret, ← htoml]

/-- A push is in flight to every peer. -/
theorem getLast?_pending_push {pushed : Str} (h : w.Listens i)
    (hpushed : loadBackends pf .clusterSync pushed = some addrs) :
    (pending pf i (w.inFlight ++ w.cluster.push pushed)).getLast? = some addrs := by
  have hall : ∀ a ∈ pending pf i (w.cluster.push pushed), a = addrs := by
    intro a ha
    obtain ⟨m, hm, hcarried⟩ := List.mem_filterMap.mp ha
    obtain ⟨-, -, -, rfl⟩ := mem_push.mp hm
    obtain ⟨-, hcarried⟩ := Option.ite_none_right_eq_some.mp hcarried
    exact Option.some.inj (hcarried.symm.trans hpushed)
  have hmem : addrs ∈ pending pf i (w.cluster.push pushed) := by
    refine List.mem_filterMap.mpr ⟨⟨i, w.cluster.secret, pushed⟩, ?_, (if_pos rfl).trans hpushed⟩
    exact mem_push.mpr ⟨h.enabled, h.peer, rfl, rfl⟩
  have hne := List.ne_nil_of_mem hmem
  rw [pending_append, List.getLast?_append, List.getLast?_eq_some_getLast hne, Option.some_or,
    hall _ (List.getLast_mem hne)]

/-- A push that cannot be read carries nothing. -/
theorem pending_push_none {pushed : Str} (hpushed : loadBackends pf .clusterSync pushed = none) :
    pending pf i (w.inFlight ++ w.cluster.push pushed) = pending pf i w.inFlight := by
  have hnone : pending pf i (w.cluster.push pushed) = [] := by
    refine List.filterMap_eq_nil_iff.mpr fun m hm => ?_
    obtain ⟨-, -, -, rfl⟩ := mem_push.mp hm
    split
    · exact hpushed
    · rfl
  rw [pending_append, hnone, List.append_nil]

/-- The pushes before and after one. -/
theorem pending_split (pf : Platform Rest PgRest) (i : Nat) (hm : w.inFlight[k]? = some m) :
    pending pf i w.inFlight = pending pf i (w.inFlight.take k) ++
      ((if m.peer = i then loadBackends pf .clusterSync m.configToml else none).toList ++
        pending pf i (w.inFlight.drop (k + 1))) ∧
    pending pf i (w.inFlight.eraseIdx k) =
      pending pf i (w.inFlight.take k) ++ pending pf i (w.inFlight.drop (k + 1)) := by
  obtain ⟨hk, rfl⟩ := List.getElem?_eq_some_iff.mp hm
  constructor
  · conv_lhs => rw [← List.take_append_drop k w.inFlight, ← List.getElem_cons_drop hk, pending_append]
    congr 1
    rw [pending]
    rw [List.filterMap_cons]
    split
    · rename_i hnone
      rw [hnone]
      rfl
    · rename_i addrs hsome
      rw [hsome]
      rfl
  · rw [List.eraseIdx_eq_take_drop_succ, pending_append]

/-- A push that carries nothing to a peer is not missed. -/
theorem pending_eraseIdx_none (hm : w.inFlight[k]? = some m)
    (hnone : (if m.peer = i then loadBackends pf .clusterSync m.configToml else none) = none) :
    pending pf i (w.inFlight.eraseIdx k) = pending pf i w.inFlight := by
  obtain ⟨hbefore, hafter⟩ := pending_split pf i hm
  rw [hbefore, hafter, hnone]
  rfl

/-- The last push that carries something. -/
theorem pending_of_eraseIdx_nil (hm : w.inFlight[k]? = some m)
    (haddrs : loadBackends pf .clusterSync m.configToml = some addrs)
    (hnil : pending pf m.peer (w.inFlight.eraseIdx k) = []) : pending pf m.peer w.inFlight = [addrs] := by
  obtain ⟨hbefore, hafter⟩ := pending_split pf m.peer hm
  obtain ⟨htake, hdrop⟩ := List.append_eq_nil_iff.mp (hafter.symm.trans hnil)
  rw [hbefore, htake, hdrop, if_pos rfl, haddrs]
  rfl

/-! ## Reloads -/

/-- A reload of rules that succeeded peers have already. -/
theorem Synced.reload {ruleEngine : RuleEngine} {rewriter : Rewriter} (h : Synced pf w)
    (hrules : ∀ i, (w.peers i).Succeeded →
      ruleEngine = (w.peers i).node.ruleEngine ∧ rewriter = (w.peers i).node.rewriter) :
    Synced pf { w with sender := { w.sender with ruleEngine, rewriter } } :=
  ⟨h.messages, fun i hi => ⟨(h.listens i hi).peer, (h.listens i hi).enabled, (h.listens i hi).secret⟩,
    fun i hi => (hrules i hi).1.symm, fun i hi => (hrules i hi).2.symm,
    fun i hi => h.newest i ⟨hi.peer, hi.enabled, hi.secret⟩, h.arrived⟩

/-- A push of backends that the sender runs, or that can not be read and say nothing new. -/
theorem Synced.push {pool : List Str} {pushed : Str} (h : Synced pf w)
    (hpushed : ∀ i, w.Listens i → loadBackends pf .clusterSync pushed = some pool ∨
      loadBackends pf .clusterSync pushed = none ∧ pool = w.sender.pool) :
    Synced pf { w with
      sender := { w.sender with pool }
      inFlight := w.inFlight ++ w.cluster.push pushed } := by
  refine ⟨fun m hm => ?_, fun i hi => ?_, h.rules, h.rewriteRules, fun i hi addrs hlast => ?_,
    fun i hi hnil => ?_⟩
  · rcases List.mem_append.mp hm with hm | hm
    · exact h.messages m hm
    · obtain ⟨henabled, hpeer, hsecret, -⟩ := mem_push.mp hm
      exact ⟨hpeer, henabled, hsecret⟩
  · have hlistens := h.listens i hi
    exact ⟨hlistens.peer, hlistens.enabled, hlistens.secret⟩
  · have hlistens : w.Listens i := ⟨hi.peer, hi.enabled, hi.secret⟩
    rcases hpushed i hlistens with hsome | ⟨hnone, hsame⟩
    · exact Option.some.inj (hlast.symm.trans (getLast?_pending_push hlistens hsome))
    · rw [pending_push_none hnone] at hlast
      exact (h.newest i hlistens addrs hlast).trans hsame.symm
  · have hlistens := h.listens i hi
    rcases hpushed i hlistens with hsome | ⟨hnone, hsame⟩
    · have hlast := getLast?_pending_push hlistens hsome
      rw [hnil] at hlast
      cases hlast
    · rw [pending_push_none hnone] at hnil
      exact (h.arrived i hi hnil).trans hsame.symm

/-! ## Deliveries -/

/-- A push that a peer does not apply. -/
theorem Synced.rejected (h : Synced pf w) (hm : w.inFlight[k]? = some m) {answer : SyncAnswer}
    (hanswer : answer ≠ .ok)
    (hcarried : w.Listens m.peer → loadBackends pf .clusterSync m.configToml = none) :
    Synced pf { w with
      peers := Function.update w.peers m.peer
        { w.peers m.peer with answers := answer :: (w.peers m.peer).answers }
      inFlight := w.inFlight.eraseIdx k } := by
  let p : ClusterPeer := { w.peers m.peer with answers := answer :: (w.peers m.peer).answers }
  have hpeer : ∀ i, (Function.update w.peers m.peer p i).node = (w.peers i).node ∧
      (Function.update w.peers m.peer p i).secret = (w.peers i).secret ∧
      ((Function.update w.peers m.peer p i).Succeeded → (w.peers i).Succeeded) := by
    intro i
    by_cases hi : i = m.peer
    · subst hi
      rw [Function.update_self]
      refine ⟨rfl, rfl, fun hok => ?_⟩
      exact (List.mem_cons.mp hok).resolve_left (Ne.symm hanswer)
    · rw [Function.update_of_ne hi]
      exact ⟨rfl, rfl, id⟩
  have hpending : ∀ i, w.Listens i → pending pf i (w.inFlight.eraseIdx k) = pending pf i w.inFlight := by
    intro i hi
    refine pending_eraseIdx_none hm ?_
    split
    · rename_i heq
      exact hcarried (heq ▸ hi)
    · rfl
  refine ⟨fun m hm => h.messages m (List.mem_of_mem_eraseIdx hm), fun i hi => ?_, fun i hi => ?_,
    fun i hi => ?_, fun i hi addrs hlast => ?_, fun i hi hnil => ?_⟩
  · have hlistens := h.listens i ((hpeer i).2.2 hi)
    exact ⟨hlistens.peer, hlistens.enabled, (hpeer i).2.1.trans hlistens.secret⟩
  · exact (congrArg ClusterNode.ruleEngine (hpeer i).1).trans (h.rules i ((hpeer i).2.2 hi))
  · exact (congrArg ClusterNode.rewriter (hpeer i).1).trans (h.rewriteRules i ((hpeer i).2.2 hi))
  · have hlistens : w.Listens i := ⟨hi.peer, hi.enabled, (hpeer i).2.1.symm.trans hi.secret⟩
    exact h.newest i hlistens addrs (hpending i hlistens ▸ hlast)
  · have hsucceeded := (hpeer i).2.2 hi
    have hnil : pending pf i w.inFlight = [] := hpending i (h.listens i hsucceeded) ▸ hnil
    exact (congrArg ClusterNode.pool (hpeer i).1).trans (h.arrived i hsucceeded hnil)

/-- A push that a peer applies. -/
theorem Synced.applied (h : Synced pf w) (hm : w.inFlight[k]? = some m) (hlistens : w.Listens m.peer)
    (haddrs : loadBackends pf .clusterSync m.configToml = some addrs)
    (hok : Propagates pf w (.deliver k)) :
    Synced pf { w with
      peers := Function.update w.peers m.peer
        { w.peers m.peer with
          node := { (w.peers m.peer).node with pool := addrs }
          answers := .ok :: (w.peers m.peer).answers }
      inFlight := w.inFlight.eraseIdx k } := by
  obtain ⟨hrules, hrewrites, hlast⟩ := hok m addrs hm hlistens haddrs
  have hpending : ∀ i, i ≠ m.peer → pending pf i (w.inFlight.eraseIdx k) = pending pf i w.inFlight :=
    fun i hi => pending_eraseIdx_none hm (if_neg (Ne.symm hi))
  let p : ClusterPeer :=
    { w.peers m.peer with
      node := { (w.peers m.peer).node with pool := addrs }
      answers := .ok :: (w.peers m.peer).answers }
  have hself : Function.update w.peers m.peer p m.peer = p := Function.update_self ..
  have hother : ∀ i, i ≠ m.peer → Function.update w.peers m.peer p i = w.peers i :=
    fun i hi => Function.update_of_ne hi ..
  refine ⟨fun m hm => h.messages m (List.mem_of_mem_eraseIdx hm), fun i hi => ?_, fun i hi => ?_,
    fun i hi => ?_, fun i hi addrs' hlast' => ?_, fun i hi hnil => ?_⟩
  · by_cases heq : i = m.peer
    · subst heq
      exact ⟨hlistens.peer, hlistens.enabled, (congrArg ClusterPeer.secret hself).trans hlistens.secret⟩
    · have hsame := hother i heq
      have hold := h.listens i (hsame ▸ hi)
      exact ⟨hold.peer, hold.enabled, (congrArg ClusterPeer.secret hsame).trans hold.secret⟩
  · by_cases heq : i = m.peer
    · subst heq
      exact (congrArg (·.node.ruleEngine) hself).trans hrules
    · have hsame := hother i heq
      exact (congrArg (·.node.ruleEngine) hsame).trans (h.rules i (hsame ▸ hi))
  · by_cases heq : i = m.peer
    · subst heq
      exact (congrArg (·.node.rewriter) hself).trans hrewrites
    · have hsame := hother i heq
      exact (congrArg (·.node.rewriter) hsame).trans (h.rewriteRules i (hsame ▸ hi))
  · by_cases heq : i = m.peer
    · subst heq
      exact h.newest m.peer hlistens addrs' (hlast addrs' hlast')
    · have hold : w.Listens i :=
        ⟨hi.peer, hi.enabled, (congrArg ClusterPeer.secret (hother i heq)).symm.trans hi.secret⟩
      exact h.newest i hold addrs' (hpending i heq ▸ hlast')
  · by_cases heq : i = m.peer
    · subst heq
      have honly := pending_of_eraseIdx_nil hm haddrs hnil
      refine (congrArg (·.node.pool) hself).trans (h.newest m.peer hlistens addrs ?_)
      rw [honly]
      rfl
    · have hsame := hother i heq
      exact (congrArg (·.node.pool) hsame).trans (h.arrived i (hsame ▸ hi) (hpending i heq ▸ hnil))

/-- The delivery of a message that propagates its file leaves the nodes in step. -/
theorem Synced.deliver (h : Synced pf w) (hm : w.inFlight[k]? = some m) (hok : Propagates pf w (.deliver k)) :
    Synced pf { w with
      peers := Function.update w.peers m.peer ((w.peers m.peer).clusterSync pf m)
      inFlight := w.inFlight.eraseIdx k } := by
  obtain ⟨hpeer, henabled, hsecret⟩ := h.messages m (List.mem_of_getElem? hm)
  rw [ClusterPeer.clusterSync]
  split
  · rename_i hoff
    refine h.rejected hm (by decide) fun hlistens => ?_
    exact absurd (hlistens.secret.symm.trans (List.isEmpty_iff.mp hoff)) henabled
  · split
    · rename_i hwrong
      refine h.rejected hm (by decide) fun hlistens => ?_
      exact absurd (hsecret.trans hlistens.secret.symm) hwrong
    · rename_i hright
      have hlistens : w.Listens m.peer := ⟨hpeer, henabled, (not_not.mp hright).symm.trans hsecret⟩
      split
      · rename_i hnone
        exact h.rejected hm (by decide) fun _ => hnone
      · rename_i addrs haddrs
        exact h.applied hm hlistens haddrs hok

/-- Every event keeps the peers synced. -/
theorem Synced.step (h : Synced pf w) {e : ClusterEvent} (hok : Propagates pf w e)
    (hstep : w.step pf e = some w') : Synced pf w' := by
  cases e with
  | reloadRules file =>
    obtain ⟨ruleEngine, hload, hstep⟩ := Option.bind_eq_some_iff.mp hstep
    obtain rfl := Option.some.inj hstep
    refine h.reload fun i hi => ⟨?_, (h.rewriteRules i hi).symm⟩
    exact Option.some.inj (hload.symm.trans (hok i hi))
  | sighup file rewriteFile =>
    obtain ⟨ruleEngine, hload, hstep⟩ := Option.bind_eq_some_iff.mp hstep
    obtain ⟨rewriter, hrewrite, hstep⟩ := Option.bind_eq_some_iff.mp hstep
    obtain rfl := Option.some.inj hstep
    refine h.reload fun i hi => ⟨?_, ?_⟩
    · exact Option.some.inj (hload.symm.trans (hok i hi).1)
    · exact Option.some.inj (hrewrite.symm.trans (hok i hi).2)
  | reloadConfig file rewriteFile pushed =>
    obtain ⟨ruleEngine, hload, hstep⟩ := Option.bind_eq_some_iff.mp hstep
    obtain ⟨rewriter, hrewrite, hstep⟩ := Option.bind_eq_some_iff.mp hstep
    obtain rfl := Option.some.inj hstep
    obtain ⟨hrules, hpushed⟩ := hok
    have hsynced : Synced pf { w with sender := { w.sender with ruleEngine, rewriter } } :=
      h.reload fun i hi => ⟨Option.some.inj (hload.symm.trans (hrules i hi).1),
        Option.some.inj (hrewrite.symm.trans (hrules i hi).2)⟩
    refine hsynced.push fun i hi => ?_
    rcases hread : loadBackends pf .clusterSync pushed with _ | addrs
    · exact .inr ⟨rfl, rfl⟩
    · exact .inl (congrArg some (hpushed i ⟨hi.peer, hi.enabled, hi.secret⟩ addrs hread))
  | reloadBackends file pushed =>
    obtain ⟨pool, hload, hstep⟩ := Option.bind_eq_some_iff.mp hstep
    obtain rfl := Option.some.inj hstep
    refine h.push fun i hi => ?_
    rcases hok i hi with hsame | ⟨hnone, hold⟩
    · exact .inl (hsame.trans hload)
    · exact .inr ⟨hnone, Option.some.inj (hload.symm.trans hold)⟩
  | deliver k =>
    obtain ⟨m, hm, hstep⟩ := Option.bind_eq_some_iff.mp hstep
    obtain rfl := Option.some.inj hstep
    exact h.deliver hm hok

theorem Fresh.synced (h : w.Fresh) : Synced pf w := by
  have hnone : ∀ i, ¬ (w.peers i).Succeeded := by
    intro i hi
    rw [ClusterPeer.Succeeded] at hi
    rw [h.answers i] at hi
    exact absurd hi List.not_mem_nil
  refine ⟨fun m hm => ?_, fun i hi => absurd hi (hnone i), fun i hi => absurd hi (hnone i),
    fun i hi => absurd hi (hnone i), fun i _ addrs hlast => ?_, fun i hi => absurd hi (hnone i)⟩
  · rw [h.inFlight] at hm
    exact absurd hm List.not_mem_nil
  · rw [h.inFlight] at hlast
    cases hlast

/-- **Cluster agreement**: in every run whose reloads and deliveries propagate, the peers that have answered
with success run what the sender runs, once all pushes have arrived. -/
theorem peers_agree {events : List ClusterEvent} (hw : w.Fresh)
    (h : Steps (ClusterWorld.step pf) (Propagates pf) w events w') : w'.Agreed := by
  intro hquiet i hi
  have hsynced : Synced pf w' := h.induct (fun _ _ _ hw hok hstep => hw.step hok hstep) hw.synced
  have hrules := hsynced.rules i hi
  have hrewrites := hsynced.rewriteRules i hi
  have hpool := hsynced.arrived i hi (hquiet ▸ rfl)
  generalize (w'.peers i).node = node at hrules hrewrites hpool ⊢
  obtain ⟨ruleEngine, rewriter, pool⟩ := node
  obtain ⟨sender, cluster, peers, inFlight⟩ := w'
  obtain ⟨ruleEngine', rewriter', pool'⟩ := sender
  cases hrules
  cases hrewrites
  cases hpool
  rfl

end ClusterWorld

end Sync

/-! ## Two nodes -/

namespace ClusterWorld

/-- A configuration with a query rule. -/
def rulesText : Str := sampleText "[primary]" ++ "[[query_rules]]\nmatch_digest = \"SELECT ?\"\n".toList

/-- A configuration with another primary. -/
def movedText : Str := "[primary]\naddr = \"db2:3306\"\n".toList

/-- The two files of the runs below, and what they are read as. -/
def clusterToml (text : Str) : Option Toml.Table :=
  if text = rulesText then
    some [("primary".toList, sampleBackend),
      ("query_rules".toList, .array [.table [("match_digest".toList, .string "SELECT ?".toList)]])]
  else if text = movedText then
    some [("primary".toList, .table [("addr".toList, .string "db2:3306".toList)])]
  else sampleToml text

/-- A process that can read them. -/
def clusterPlatform : Platform Unit Unit := { samplePlatform with toml := clusterToml }

/-- Two nodes that were started with the same file. -/
def twoNodes : ClusterWorld where
  sender := ⟨[], [], ["db:3306".toList]⟩
  cluster := ⟨[0], "s3cret".toList⟩
  peers _ := ⟨⟨[], [], ["db:3306".toList]⟩, "s3cret".toList, []⟩
  inFlight := []

theorem fresh_twoNodes : twoNodes.Fresh := ⟨rfl, fun _ => rfl⟩

/-- The primary moves and moves back; both pushes arrive in order. -/
def thereAndBack : List ClusterEvent :=
  [.reloadBackends movedText movedText, .reloadBackends (sampleText "[primary]") (sampleText "[primary]"),
    .deliver 0, .deliver 0]

/-- What is checked on the way: backends only are reloaded, where nobody has rules. -/
def propagates (w : ClusterWorld) : ClusterEvent → Bool
  | .reloadBackends file pushed => pushed == file
  | .deliver k => (w.inFlight[k]?).all fun m =>
    (w.peers m.peer).node.ruleEngine.isEmpty && w.sender.ruleEngine.isEmpty &&
    (w.peers m.peer).node.rewriter.isEmpty && w.sender.rewriter.isEmpty &&
    (pending clusterPlatform m.peer (w.inFlight.eraseIdx k)).getLast?.all fun last =>
      (pending clusterPlatform m.peer w.inFlight).getLast? == some last
  | _ => false

theorem propagates_of_checked (w : ClusterWorld) (e : ClusterEvent) (h : w.propagates e = true) :
    Propagates clusterPlatform w e := by
  cases e with
  | reloadBackends file pushed =>
    intro i _
    obtain rfl : pushed = file := beq_iff_eq.mp h
    exact .inl rfl
  | deliver k =>
    intro m addrs hm _ _
    unfold propagates at h
    dsimp only at h
    rw [hm] at h
    simp only [Option.all_some, Bool.and_eq_true, List.isEmpty_iff] at h
    obtain ⟨⟨⟨⟨hrules, hrules'⟩, hrewrites⟩, hrewrites'⟩, hlast⟩ := h
    refine ⟨hrules.trans hrules'.symm, hrewrites.trans hrewrites'.symm, fun last hlast' => ?_⟩
    rw [hlast'] at hlast
    exact beq_iff_eq.mp hlast
  | _ => cases h

theorem peers_agree_thereAndBack : ∃ w, run (step clusterPlatform) twoNodes thereAndBack = some w ∧
    (w.peers 0).answers = [.ok, .ok] ∧ w.Agreed := by
  have hrun : (run (fun w e => if w.propagates e then step clusterPlatform w e else none)
      twoNodes thereAndBack).map (fun w => (w.peers 0).answers) = some [.ok, .ok] := by
    decide +kernel
  obtain ⟨w, hw, hanswers⟩ := Option.map_eq_some_iff.mp hrun
  have hsteps := steps_of_checked propagates_of_checked hw
  exact ⟨w, hsteps.run, hanswers, peers_agree fresh_twoNodes hsteps⟩

/-- A peer answers with success and leaves its rules as they were. -/
theorem rules_not_applied : ¬ ∀ (pf : Platform Unit Unit) (w w' : ClusterWorld) (events : List ClusterEvent),
    w.Fresh → run (step pf) w events = some w' → w'.Agreed := by
  intro h
  have hrun : (run (step clusterPlatform) twoNodes
      [.reloadConfig rulesText rulesText rulesText, .deliver 0]).map (fun w =>
        (w.sender.ruleEngine.length, (w.peers 0).node.ruleEngine.length, (w.peers 0).answers,
          w.inFlight.length)) = some (1, 0, [.ok], 0) := by
    decide +kernel
  obtain ⟨w, hw, hend⟩ := Option.map_eq_some_iff.mp hrun
  simp only [Prod.mk.injEq] at hend
  obtain ⟨hsender, hpeer, hanswers, hquiet⟩ := hend
  have hsucceeded : (w.peers 0).Succeeded := by
    rw [ClusterPeer.Succeeded]
    rw [hanswers]
    exact List.mem_singleton_self _
  have hsame := h _ _ _ _ fresh_twoNodes hw (List.length_eq_zero_iff.mp hquiet) 0 hsucceeded
  rw [hsame, hsender] at hpeer
  exact absurd hpeer (by decide)

end ClusterWorld

end TurbineProxy.Config
