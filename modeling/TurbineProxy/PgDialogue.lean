import TurbineProxy.Backend
import TurbineProxy.Threads

/-!
# Who waits for whom on the PostgreSQL path

A client, the proxy session and a backend exchange framed messages over four channels. The proxy buffers
both ways: `read_command` gathers a pipeline up to `Sync`, and `collect_until_ready` gathers a response up
to `ReadyForQuery`.

`MutualWait` is the state in which all three wait and the proxy holds messages back. `waits_resolve` says
that it is never reached as long as no backend pauses for COPY data and no client waits on a `Flush`.

While the proxy is not collecting, every backend connection it has is idle; so the one that it talks to is
modelled, and which one that is makes no difference.
-/

namespace TurbineProxy

/-! ## Messages -/

namespace PgMsg

/-- The messages of which `read_command` says that they begin a pipeline: `P`, `B`, `D`, `E`, `C`, `H`. -/
def beginsPipeline (m : PgMsg) : Bool := [0x50, 0x42, 0x44, 0x45, 0x43, 0x48].contains m.tag

/-- `Flush` -/
def isFlush (m : PgMsg) : Bool := m.tag == 0x48

/-- `Sync` -/
def isSync (m : PgMsg) : Bool := m.tag == 0x53

/-- `Query` -/
def isQuery (m : PgMsg) : Bool := m.tag == 0x51

/-- `Terminate` -/
def isTerminate (m : PgMsg) : Bool := m.tag == 0x58

/-- `CopyData` -/
def isCopyData (m : PgMsg) : Bool := m.tag == 0x64

/-- `CopyDone` and `CopyFail` -/
def endsCopy (m : PgMsg) : Bool := m.tag == 0x63 || m.tag == 0x66

/-- `ReadyForQuery` -/
def isReady (m : PgMsg) : Bool := m.tag == 0x5A

/-- `CopyInResponse` -/
def isCopyIn (m : PgMsg) : Bool := m.tag == 0x47

/-- `ErrorResponse` -/
def isError (m : PgMsg) : Bool := m.tag == 0x45

/-- The messages that a backend answers up to `ReadyForQuery`. -/
def prompts (m : PgMsg) : Bool := m.isQuery || m.isSync

end PgMsg

/-! ## The proxy -/

/-- A command, with the messages that make it up. -/
inductive PgCommand : Type where
  /-- `Command::Quit` -/
  | quit
  /-- `Command::Query` -/
  | query (m : PgMsg)
  /-- `Command::Stmt` -/
  | stmt (pipeline : List PgMsg)
  /-- `Command::Other` -/
  | other (m : PgMsg)

/-- What goes to the backend. -/
def PgCommand.messages : PgCommand → List PgMsg
  | quit => []
  | query m => [m]
  | stmt pipeline => pipeline
  | other m => [m]

/-- For whom the proxy talks to the backend. -/
inductive RoundTrip : Type where
  /-- it forwards the client's command -/
  | forward
  /-- it has a statement of its own: before a command is routed, or after one was answered -/
  | own (next : Option PgCommand)

/-- What the proxy is doing. -/
inductive ProxyPhase : Type where
  /-- in `read_command`, with the beginning of a pipeline -/
  | reading (begun : List PgMsg)
  /-- it has a command and neither sent nor answered it -/
  | routing (command : PgCommand)
  /-- in `collect_until_ready` -/
  | collecting (trip : RoundTrip) (held : List PgMsg)
  /-- the session is over -/
  | closed

/-- A `Query`, or a pipeline up to its `Sync`. -/
def isCommand : List PgMsg → Bool
  | [] => false
  | m :: ms => if ms = [] then m.prompts else m.beginsPipeline && isCommand ms

/-- `read_command`, one message at a time. -/
def readCommand (begun : List PgMsg) (m : PgMsg) : ProxyPhase :=
  if begun = [] then
    if m.isQuery then .routing (.query m)
    else if m.isTerminate then .routing .quit
    else if m.beginsPipeline then .reading [m]
    else .routing (.other m)
  else if m.isSync then .routing (.stmt (begun ++ [m]))
  else .reading (begun ++ [m])

/-! ## The backend -/

/-- What a backend is doing. -/
inductive BackendPhase : Type where
  /-- after `ReadyForQuery` -/
  | ready
  /-- in a pipeline -/
  | inPipeline
  /-- sends what it has for a `Flush` -/
  | flushing
  /-- owes the answer to a `Query` or a `Sync` -/
  | answering
  /-- waits for COPY data, in a pipeline or for a simple query -/
  | copying (extended : Bool)
  deriving DecidableEq

namespace BackendPhase

/-- It sends nothing more before there is input. -/
def waitsForInput : BackendPhase → Bool
  | flushing | answering => false
  | _ => true

/-- It reads a message. During COPY, `Flush` and `Sync` are ignored in a pipeline, and anything else
makes it fail; outside, COPY data is ignored. -/
def read (b : BackendPhase) (m : PgMsg) : BackendPhase :=
  match b with
  | copying extended =>
    if m.isCopyData || (extended && (m.isFlush || m.isSync)) then copying extended
    else if extended then inPipeline else answering
  | b =>
    if m.prompts then answering
    else if m.isFlush then flushing
    else if m.isCopyData || m.endsCopy then b
    else inPipeline

/-- It sends a message, if it may. Notices and other messages without a meaning here can come at any time. -/
def send (b : BackendPhase) (m : PgMsg) : Option BackendPhase :=
  if m.isReady then if b = answering then some ready else none
  else if m.isCopyIn then
    match b with
    | answering => some (copying false)
    | inPipeline => some (copying true)
    | _ => none
  else match b with
    | copying extended => some (if m.isError then if extended then inPipeline else answering else copying extended)
    | b => some b

end BackendPhase

/-! ## The client -/

/-- Where a client is in the protocol. -/
inductive ClientPhase : Type where
  /-- between commands -/
  | free
  /-- in a pipeline; some message of it was not flushed -/
  | inPipeline (unflushed : Bool)
  /-- in a pipeline, after a `Flush`: a reply will come -/
  | flushed
  /-- in a pipeline that has failed: the rest is skipped -/
  | failed
  /-- sends COPY data -/
  | copying (extended : Bool)
  /-- it has left -/
  | gone
  deriving DecidableEq

/-- In the middle of a pipeline. -/
def ClientPhase.midPipeline : ClientPhase → Bool
  | inPipeline _ | flushed | failed => true
  | _ => false

/-- A client: where it is, how many `ReadyForQuery` messages it can count on, and whether it waits for an answer. -/
structure DialogueClient where
  /-- where it is -/
  phase : ClientPhase
  /-- the `ReadyForQuery` messages it can count on -/
  owed : Nat
  /-- it sends nothing before it has received something -/
  waiting : Bool

namespace DialogueClient

variable (c : DialogueClient)

/-- It sends a message, if it may. -/
def send (m : PgMsg) : Option DialogueClient :=
  if c.waiting then none
  else match c.phase with
    | .free =>
      if m.prompts then some { c with owed := c.owed + 1 }
      else if m.isTerminate then some { c with phase := .gone }
      else if m.isFlush then some { c with phase := .inPipeline false }
      else if m.beginsPipeline then some { c with phase := .inPipeline true }
      else none
    | .inPipeline unflushed =>
      if m.isSync then some { c with phase := .free, owed := c.owed + 1 }
      else if m.isFlush then some { c with phase := if unflushed then .flushed else .inPipeline false }
      else if m.beginsPipeline then some { c with phase := .inPipeline true }
      else none
    | .flushed =>
      if m.isSync then some { c with phase := .free, owed := c.owed + 1 }
      else if m.isFlush then some c
      else if m.beginsPipeline then some { c with phase := .inPipeline true }
      else none
    | .failed => if m.isSync then some { c with phase := .free, owed := c.owed + 1 } else none
    | .copying extended =>
      if m.isCopyData then some c
      else if m.endsCopy then some { c with phase := if extended then .inPipeline true else .free }
      else none
    | .gone => none

/-- It receives a message. While a `ReadyForQuery` is owed, what comes belongs to an earlier command. -/
def receive (m : PgMsg) : DialogueClient where
  phase :=
    if m.isCopyIn then .copying c.phase.midPipeline
    else if c.owed ≠ 0 then c.phase
    else if m.isError && c.phase.midPipeline then .failed
    else if c.phase = .flushed then .inPipeline false
    else c.phase
  owed := if m.isReady then c.owed - 1 else c.owed
  waiting := false

/-- It may wait for a message: one is sure to come. -/
def mayWait : Bool := c.owed != 0 || c.phase == .flushed

end DialogueClient

/-!
## The three parties

Client, proxy and backend take their steps in any order, and talk over channels that keep the order of messages. None
of them can see what the others are about.
-/

/-- The parties and the messages in flight. -/
structure Dialogue where
  /-- the client -/
  client : DialogueClient
  /-- from the client to the proxy -/
  toProxy : List PgMsg
  /-- the proxy session -/
  proxy : ProxyPhase
  /-- from the proxy to the backend -/
  toBackend : List PgMsg
  /-- the backend -/
  backend : BackendPhase
  /-- from the backend to the proxy -/
  fromBackend : List PgMsg
  /-- from the proxy to the client -/
  toClient : List PgMsg

/-- One step of a party. -/
inductive DialogueEvent : Type where
  /-- the client sends a message -/
  | clientSends (m : PgMsg)
  /-- the client begins to wait -/
  | clientWaits
  /-- the client receives a message -/
  | clientReceives
  /-- the proxy reads a message of the client -/
  | proxyReads
  /-- the proxy sends the command -/
  | proxySends
  /-- the proxy sends a statement or a pipeline of its own -/
  | proxyPrepares (statement : List PgMsg)
  /-- the proxy answers by itself -/
  | proxyAnswers (before : List PgMsg) (ready : PgMsg)
  /-- the proxy reads a message of the backend -/
  | proxyCollects
  /-- the backend reads a message -/
  | backendReads
  /-- the backend sends a message -/
  | backendSends (m : PgMsg)
  /-- the backend has sent what there was for a `Flush` -/
  | backendFlushed

namespace Dialogue

variable (d : Dialogue)

/-- Perform a step, if the party can. -/
def step : DialogueEvent → Option Dialogue
  | .clientSends m => (d.client.send m).map fun client => { d with client, toProxy := d.toProxy ++ [m] }
  | .clientWaits =>
    if d.client.mayWait then some { d with client := { d.client with waiting := true } } else none
  | .clientReceives =>
    match d.toClient with
    | [] => none
    | m :: toClient => some { d with client := d.client.receive m, toClient }
  | .proxyReads =>
    match d.proxy, d.toProxy with
    | .reading begun, m :: toProxy => some { d with proxy := readCommand begun m, toProxy }
    | _, _ => none
  | .proxySends =>
    match d.proxy with
    | .routing .quit => some { d with proxy := .closed }
    | .routing command =>
      some { d with proxy := .collecting .forward [], toBackend := d.toBackend ++ command.messages }
    | _ => none
  | .proxyPrepares statement =>
    if isCommand statement then
      match d.proxy with
      | .routing .quit => none
      | .routing command =>
        some { d with proxy := .collecting (.own (some command)) [], toBackend := d.toBackend ++ statement }
      | .reading [] =>
        some { d with proxy := .collecting (.own none) [], toBackend := d.toBackend ++ statement }
      | _ => none
    else none
  | .proxyAnswers before ready =>
    match d.proxy with
    | .routing .quit => none
    | .routing _ =>
      if ready.isReady ∧ ∀ m ∈ before, m.isReady = false ∧ m.isCopyIn = false then
        some { d with proxy := .reading [], toClient := d.toClient ++ (before ++ [ready]) }
      else none
    | _ => none
  | .proxyCollects =>
    match d.proxy, d.fromBackend with
    | .collecting trip held, m :: fromBackend =>
      if m.isReady then
        match trip with
        | .forward => some { d with proxy := .reading [], fromBackend, toClient := d.toClient ++ (held ++ [m]) }
        | .own (some command) => some { d with proxy := .routing command, fromBackend }
        | .own none => some { d with proxy := .reading [], fromBackend }
      else some { d with proxy := .collecting trip (held ++ [m]), fromBackend }
    | _, _ => none
  | .backendReads =>
    match d.toBackend with
    | [] => none
    | m :: toBackend =>
      if d.backend.waitsForInput then some { d with backend := d.backend.read m, toBackend } else none
  | .backendSends m =>
    (d.backend.send m).map fun backend => { d with backend, fromBackend := d.fromBackend ++ [m] }
  | .backendFlushed => if d.backend = .flushing then some { d with backend := .inPipeline } else none

/-- The proxy holds messages back: those of a pipeline until `Sync`, or those of a response until
`ReadyForQuery`. -/
def Withholds : Prop :=
  match d.proxy with
  | .reading begun => begun ≠ [] ∧ d.toProxy = []
  | .collecting _ held => held ≠ [] ∧ d.fromBackend = []
  | _ => False

/-- The client waits, the backend waits for input, and the proxy holds messages back. -/
structure MutualWait : Prop where
  /-- the client waits -/
  client : d.client.waiting = true ∧ d.toClient = []
  /-- the backend waits -/
  backend : d.backend.waitsForInput = true ∧ d.toBackend = []
  /-- the proxy waits -/
  proxy : d.Withholds

/-- After the login. -/
def start : Dialogue := ⟨⟨.free, 0, false⟩, [], .reading [], [], .ready, [], []⟩

/-- No pause that the buffers do not know: the backend does not ask for COPY data, and the client waits for
the end of a command only, not for what it has flushed. -/
def Unpaused (d : Dialogue) : DialogueEvent → Prop
  | .clientWaits => d.client.owed ≠ 0
  | .backendSends m => m.isCopyIn = false
  | _ => True

instance (d : Dialogue) (e : DialogueEvent) : Decidable (d.Unpaused e) :=
  match e with
  | .clientWaits => inferInstanceAs (Decidable (d.client.owed ≠ 0))
  | .backendSends m => inferInstanceAs (Decidable (m.isCopyIn = false))
  | .clientSends _ | .clientReceives | .proxyReads | .proxySends | .proxyPrepares _ | .proxyAnswers _ _
  | .proxyCollects | .backendReads | .backendFlushed => .isTrue trivial

end Dialogue

/-! ## What a client sends -/

section Stream

variable {m : PgMsg} {ms : List PgMsg}

/-- Between commands or in a pipeline, after one more message; `none` if it does not belong there. -/
def follow (mid : Bool) (m : PgMsg) : Option Bool :=
  if mid then if m.isSync then some false else if m.beginsPipeline then some true else none
  else if m.prompts || m.isTerminate then some false
  else if m.beginsPipeline then some true
  else none

theorem prompts_of_beginsPipeline (h : m.beginsPipeline = true) : m.prompts = false := by
  simp only [PgMsg.beginsPipeline, List.contains_iff_mem, List.mem_cons, List.not_mem_nil, or_false] at h
  rcases h with h | h | h | h | h | h <;> simp [PgMsg.prompts, PgMsg.isQuery, PgMsg.isSync, h]

theorem prompts_of_isSync (h : m.isSync = true) : m.prompts = true := by rw [PgMsg.prompts, h, Bool.or_true]

theorem prompts_of_isTerminate (h : m.isTerminate = true) : m.prompts = false := by
  simp [PgMsg.prompts, PgMsg.isQuery, PgMsg.isSync, beq_iff_eq.mp h]

/-- A pipeline that is closed is a command. -/
theorem isCommand_append (h : ∀ b ∈ ms, b.beginsPipeline = true) (hm : m.prompts = true) :
    isCommand (ms ++ [m]) = true := by
  induction ms with
  | nil => exact hm
  | cons b ms ih =>
    rw [List.cons_append, isCommand, if_neg (List.append_ne_nil_of_right_ne_nil _ (List.cons_ne_nil _ _)),
      h b List.mem_cons_self, ih fun b' hb' => h b' (List.mem_cons_of_mem _ hb'), Bool.and_self]

namespace ProxyPhase

/-- It is gathering a pipeline. -/
def mid : ProxyPhase → Bool
  | reading begun => !begun.isEmpty
  | _ => false

/-- A command of the client is under way. -/
def busy : ProxyPhase → Nat
  | routing .quit | reading _ | closed | collecting (.own none) _ => 0
  | _ => 1

/-- What the proxy has collected of a response and not yet sent on. -/
def held : ProxyPhase → List PgMsg
  | collecting _ held => held
  | _ => []

/-- It is in `collect_until_ready`. -/
def collects : ProxyPhase → Bool
  | collecting .. => true
  | _ => false

theorem held_of_not_collects {p : ProxyPhase} (h : p.collects = false) : p.held = [] := by
  cases p with
  | collecting trip held => cases h
  | reading begun | routing command | closed => rfl

/-- What was read is a command, or the beginning of one. -/
def Legal : ProxyPhase → Prop
  | reading begun => ∀ m ∈ begun, m.beginsPipeline = true
  | routing command => command = .quit ∨ isCommand command.messages = true
  | collecting (.own (some command)) _ => isCommand command.messages = true
  | _ => True

end ProxyPhase

/-- What is read of a message between commands is legal, and leads into a pipeline just if the message does. -/
theorem readCommand_free {mid : Bool} (h : follow false m = some mid) :
    (readCommand [] m).Legal ∧ (readCommand [] m).mid = mid ∧
      (readCommand [] m).busy = (if m.prompts then 1 else 0) ∧ (readCommand [] m).collects = false := by
  rw [follow, if_neg Bool.false_ne_true] at h
  rw [readCommand, if_pos rfl]
  by_cases hp : m.prompts = true
  · rw [hp, Bool.true_or, if_pos rfl] at h
    obtain rfl : false = mid := Option.some.inj h
    rw [if_pos hp]
    by_cases hq : m.isQuery = true
    · rw [if_pos hq]
      exact ⟨Or.inr hp, rfl, rfl, rfl⟩
    · have hterminate : ¬ m.isTerminate = true := fun ht => by rw [prompts_of_isTerminate ht] at hp; cases hp
      have hbegins : ¬ m.beginsPipeline = true := fun hb => by rw [prompts_of_beginsPipeline hb] at hp; cases hp
      rw [if_neg hq, if_neg hterminate, if_neg hbegins]
      exact ⟨Or.inr hp, rfl, rfl, rfl⟩
  · have hquery : ¬ m.isQuery = true := fun hq => hp (by rw [PgMsg.prompts, hq, Bool.true_or])
    rw [Bool.not_eq_true] at hp
    rw [hp, Bool.false_or] at h
    rw [if_neg hquery, hp, if_neg Bool.false_ne_true]
    by_cases ht : m.isTerminate = true
    · rw [if_pos ht] at h ⊢
      obtain rfl : false = mid := Option.some.inj h
      exact ⟨Or.inl rfl, rfl, rfl, rfl⟩
    · rw [if_neg ht] at h ⊢
      obtain ⟨hb, rfl⟩ : m.beginsPipeline = true ∧ mid = true := by
        obtain ⟨hb, heq⟩ := Option.ite_none_right_eq_some.mp h
        exact ⟨hb, (Option.some.inj heq).symm⟩
      rw [if_pos hb]
      exact ⟨List.forall_mem_singleton.mpr hb, rfl, rfl, rfl⟩

/-- What is read of a message in a pipeline is legal, too, and goes on with the pipeline just if the client does. -/
theorem readCommand_mid {begun : List PgMsg} {mid : Bool} (hne : begun ≠ [])
    (hbegun : ∀ b ∈ begun, b.beginsPipeline = true) (h : follow true m = some mid) :
    (readCommand begun m).Legal ∧ (readCommand begun m).mid = mid ∧
      (readCommand begun m).busy = (if m.prompts then 1 else 0) ∧ (readCommand begun m).collects = false := by
  rw [follow, if_pos rfl] at h
  rw [readCommand, if_neg hne]
  by_cases hs : m.isSync = true
  · rw [if_pos hs] at h ⊢
    obtain rfl : false = mid := Option.some.inj h
    have hp := prompts_of_isSync hs
    exact ⟨Or.inr (isCommand_append hbegun hp), rfl, by rw [if_pos hp]; rfl, rfl⟩
  · rw [if_neg hs] at h ⊢
    obtain ⟨hb, heq⟩ := Option.ite_none_right_eq_some.mp h
    obtain rfl : true = mid := Option.some.inj heq
    refine ⟨?_, by simp [ProxyPhase.mid], by rw [prompts_of_beginsPipeline hb]; rfl, rfl⟩
    intro b hmem
    rcases List.mem_append.mp hmem with hmem | hmem
    · exact hbegun b hmem
    · exact List.mem_singleton.mp hmem ▸ hb

/-- What `read_command` makes of a message that belongs there. -/
theorem readCommand_of_follow {begun : List PgMsg} {mid : Bool} (hbegun : ∀ b ∈ begun, b.beginsPipeline = true)
    (h : follow (!begun.isEmpty) m = some mid) :
    (readCommand begun m).Legal ∧ (readCommand begun m).mid = mid ∧
      (readCommand begun m).busy = (if m.prompts then 1 else 0) ∧ (readCommand begun m).collects = false := by
  cases begun with
  | nil => exact readCommand_free h
  | cons b bs => exact readCommand_mid (List.cons_ne_nil b bs) hbegun h

end Stream

/-! ## The client keeps to the protocol -/

section Client

variable {c c' : DialogueClient} {m : PgMsg}

theorem beginsPipeline_of_isFlush (h : m.isFlush = true) : m.beginsPipeline = true := by
  simp [PgMsg.beginsPipeline, beq_iff_eq.mp h]

/-- What it sends belongs there, and every prompt is accounted for. -/
theorem DialogueClient.send_eq (h : c.send m = some c') (hcopy : ∀ e, c.phase ≠ .copying e) :
    follow c.phase.midPipeline m = some c'.phase.midPipeline ∧
      c'.owed = c.owed + (if m.prompts then 1 else 0) ∧ c'.waiting = false ∧ ∀ e, c'.phase ≠ .copying e := by
  obtain ⟨phase, owed, waiting⟩ := c
  have hsync := prompts_of_isSync (m := m)
  have hterminate := prompts_of_isTerminate (m := m)
  have hbegins := prompts_of_beginsPipeline (m := m)
  have hflush := beginsPipeline_of_isFlush (m := m)
  cases waiting with
  | true => cases h
  | false =>
    cases phase with
    | free => grind [DialogueClient.send, follow, ClientPhase.midPipeline]
    | inPipeline unflushed => grind [DialogueClient.send, follow, ClientPhase.midPipeline]
    | flushed => grind [DialogueClient.send, follow, ClientPhase.midPipeline]
    | failed => grind [DialogueClient.send, follow, ClientPhase.midPipeline]
    | copying extended => exact absurd rfl (hcopy extended)
    | gone => cases h

/-- What it receives leaves it where it was, in a pipeline or not. -/
theorem DialogueClient.receive_eq (h : m.isCopyIn = false) (hcopy : ∀ e, c.phase ≠ .copying e) :
    (c.receive m).phase.midPipeline = c.phase.midPipeline ∧ ∀ e, (c.receive m).phase ≠ .copying e := by
  obtain ⟨phase, owed, waiting⟩ := c
  grind [DialogueClient.receive, ClientPhase.midPipeline]

end Client

/-! ## A response is due while the proxy collects -/

/-- A backend to which a command was sent: it has not read all of it, it owes the answer, or the answer is
under way. -/
inductive Due (toBackend : List PgMsg) (backend : BackendPhase) (fromBackend : List PgMsg) : Prop where
  /-- the prompt is still to be read -/
  | sent (command : isCommand toBackend = true) (waits : backend ≠ .answering) (copies : ∀ e, backend ≠ .copying e)
      (silent : fromBackend.countP PgMsg.isReady = 0)
  /-- the prompt was read -/
  | read (empty : toBackend = []) (answers : backend = .answering) (silent : fromBackend.countP PgMsg.isReady = 0)
  /-- the answer was sent -/
  | answered (empty : toBackend = []) (ready : backend = .ready) (one : fromBackend.countP PgMsg.isReady = 1)

/-- No command is under way. -/
structure Rested (toBackend : List PgMsg) (backend : BackendPhase) (fromBackend : List PgMsg) : Prop where
  /-- everything was read -/
  empty : toBackend = []
  /-- everything was answered -/
  ready : backend = .ready
  /-- every answer was collected -/
  silent : fromBackend.countP PgMsg.isReady = 0

section Backend

variable {toBackend fromBackend : List PgMsg} {b b' : BackendPhase} {m : PgMsg} {ms : List PgMsg}

/-- Sending a command to a backend at rest. -/
theorem Rested.send (h : Rested toBackend b fromBackend) (hms : isCommand ms = true) :
    Due (toBackend ++ ms) b fromBackend := by
  obtain ⟨rfl, rfl, hsilent⟩ := h
  exact .sent hms nofun nofun hsilent

/-- The backend reads the beginning of a pipeline, or the prompt. -/
theorem Due.reads (h : Due (m :: ms) b fromBackend) : Due ms (b.read m) fromBackend := by
  cases h with
  | sent hcommand hwaits hcopies hsilent =>
    rw [isCommand] at hcommand
    by_cases hms : ms = []
    · rw [if_pos hms] at hcommand
      refine .read hms ?_ hsilent
      cases b with
      | copying extended => exact absurd rfl (hcopies extended)
      | ready | inPipeline | flushing | answering => exact if_pos hcommand
    · rw [if_neg hms, Bool.and_eq_true] at hcommand
      have hprompts := prompts_of_beginsPipeline hcommand.1
      have hread : b.read m ≠ .answering ∧ ∀ e, b.read m ≠ .copying e := by
        cases b with
        | copying extended => exact absurd rfl (hcopies extended)
        | answering => exact absurd rfl hwaits
        | ready | inPipeline | flushing =>
          simp only [BackendPhase.read, hprompts, Bool.false_eq_true, if_false]
          split <;> (try split) <;> exact ⟨nofun, nofun⟩
      exact .sent hcommand.2 hread.1 hread.2 hsilent
  | read hempty => cases hempty
  | answered hempty => cases hempty

/-- Of the messages that may come, only the one that is owed is `ReadyForQuery`. -/
theorem BackendPhase.send_eq (h : b.send m = some b') (hcopy : m.isCopyIn = false) (hb : ∀ e, b ≠ .copying e) :
    (m.isReady = true ∧ b = .answering ∧ b' = .ready) ∨ (m.isReady = false ∧ b' = b) := by
  rw [send.eq_def] at h
  by_cases hready : m.isReady = true
  · rw [if_pos hready] at h
    obtain ⟨hanswering, heq⟩ := Option.ite_none_right_eq_some.mp h
    exact Or.inl ⟨hready, hanswering, (Option.some.inj heq).symm⟩
  · rw [if_neg hready, hcopy, if_neg Bool.false_ne_true] at h
    cases b with
    | copying extended => exact absurd rfl (hb extended)
    | ready | inPipeline | flushing | answering =>
      exact Or.inr ⟨Bool.eq_false_iff.mpr hready, (Option.some.inj h).symm⟩

theorem countP_isReady_append (hready : m.isReady = false) :
    (fromBackend ++ [m]).countP PgMsg.isReady = fromBackend.countP PgMsg.isReady := by
  rw [List.countP_append, List.countP_singleton, hready]
  rfl

theorem Due.sends (h : Due toBackend b fromBackend) (hsend : b.send m = some b') (hcopy : m.isCopyIn = false) :
    Due toBackend b' (fromBackend ++ [m]) := by
  cases h with
  | sent hcommand hwaits hcopies hsilent =>
    rcases b.send_eq hsend hcopy hcopies with ⟨-, hanswering, -⟩ | ⟨hready, rfl⟩
    · exact absurd hanswering hwaits
    · exact .sent hcommand hwaits hcopies ((countP_isReady_append hready).trans hsilent)
  | read hempty hanswers hsilent =>
    rcases b.send_eq hsend hcopy (by rintro e rfl; cases hanswers) with ⟨hready, -, rfl⟩ | ⟨hready, rfl⟩
    · refine .answered hempty rfl ?_
      rw [List.countP_append, hsilent, List.countP_singleton, if_pos hready]
    · exact .read hempty hanswers ((countP_isReady_append hready).trans hsilent)
  | answered hempty hb hone =>
    rcases b.send_eq hsend hcopy (by rintro e rfl; cases hb) with ⟨-, hanswering, -⟩ | ⟨hready, rfl⟩
    · rw [hb] at hanswering
      cases hanswering
    · exact .answered hempty hb ((countP_isReady_append hready).trans hone)

theorem Rested.sends (h : Rested toBackend b fromBackend) (hsend : b.send m = some b') (hcopy : m.isCopyIn = false) :
    Rested toBackend b' (fromBackend ++ [m]) := by
  obtain ⟨hempty, rfl, hsilent⟩ := h
  rcases BackendPhase.send_eq hsend hcopy nofun with ⟨-, hanswering, -⟩ | ⟨hready, rfl⟩
  · cases hanswering
  · exact ⟨hempty, rfl, (countP_isReady_append hready).trans hsilent⟩

/-- After what there was for a `Flush`. -/
theorem Due.flushed (h : Due toBackend .flushing fromBackend) : Due toBackend .inPipeline fromBackend := by
  cases h with
  | sent hcommand hwaits hcopies hsilent => exact .sent hcommand nofun nofun hsilent
  | read hempty hanswers => cases hanswers
  | answered hempty hb => cases hb

/-- The answer is collected message by message, up to `ReadyForQuery`. -/
theorem Due.collects (h : Due toBackend b (m :: ms)) :
    if m.isReady then Rested toBackend b ms else Due toBackend b ms := by
  by_cases hready : m.isReady = true
  · rw [if_pos hready]
    have hone : (m :: ms).countP PgMsg.isReady = ms.countP PgMsg.isReady + 1 := List.countP_cons_of_pos hready
    cases h with
    | sent hcommand hwaits hcopies hsilent => omega
    | read hempty hanswers hsilent => omega
    | answered hempty hb hcount => exact ⟨hempty, hb, by omega⟩
  · rw [if_neg hready]
    have hsame : (m :: ms).countP PgMsg.isReady = ms.countP PgMsg.isReady := List.countP_cons_of_neg hready
    cases h with
    | sent hcommand hwaits hcopies hsilent => exact .sent hcommand hwaits hcopies (hsame ▸ hsilent)
    | read hempty hanswers hsilent => exact .read hempty hanswers (hsame ▸ hsilent)
    | answered hempty hb hcount => exact .answered hempty hb (hsame ▸ hcount)

/-- While an answer is due, the backend is not waiting for input with nothing under way. -/
theorem Due.not_stuck (h : Due [] b []) : b.waitsForInput = false := by
  cases h with
  | sent hcommand => cases hcommand
  | read hempty hanswers => rw [hanswers]; rfl
  | answered hempty hb hcount => cases hcount

end Backend

/-! ## Every run -/

namespace Dialogue

variable {d d' : Dialogue} {m : PgMsg}

/-- What holds as long as there is no pause. -/
structure Sound (d : Dialogue) : Prop where
  /-- what the proxy has begun to read is a command -/
  legal : d.proxy.Legal
  /-- what is on its way to the proxy goes on with it -/
  stream : d.toProxy.foldlM follow d.proxy.mid = some d.client.phase.midPipeline
  /-- every `ReadyForQuery` that the client can count on is accounted for -/
  owed : d.client.owed = d.toProxy.countP PgMsg.prompts + d.proxy.busy + d.toClient.countP PgMsg.isReady
  /-- the client waits for one -/
  waiting : d.client.waiting = true → d.client.owed ≠ 0
  /-- the client sends no COPY data -/
  uncopied : ∀ e, d.client.phase ≠ .copying e
  /-- nobody asks for it -/
  noCopyIn : ∀ m ∈ d.fromBackend ++ d.proxy.held ++ d.toClient, m.isCopyIn = false
  /-- the end of a response is not held back -/
  held : d.proxy.held.countP PgMsg.isReady = 0
  /-- the backend has something to do just when the proxy collects -/
  due : if d.proxy.collects then Due d.toBackend d.backend d.fromBackend
    else Rested d.toBackend d.backend d.fromBackend

theorem sound_start : start.Sound :=
  ⟨nofun, rfl, rfl, nofun, nofun, nofun, rfl, ⟨rfl, rfl, rfl⟩⟩

theorem Sound.clientSends (h : d.Sound) (hstep : d.step (.clientSends m) = some d') : d'.Sound := by
  obtain ⟨client, hsend, rfl⟩ := Option.map_eq_some_iff.mp hstep
  obtain ⟨hfollow, howed, hwaiting, hcopy⟩ := DialogueClient.send_eq hsend h.uncopied
  refine { h with stream := ?_, owed := ?_, waiting := ?_, uncopied := hcopy }
  · rw [List.foldlM_append, h.stream]
    exact (Option.bind_some _ _).trans ((List.foldlM_cons ..).trans (by rw [hfollow]; rfl))
  · change client.owed = (d.toProxy ++ [m]).countP PgMsg.prompts + d.proxy.busy + d.toClient.countP PgMsg.isReady
    rw [howed, h.owed, List.countP_append, List.countP_singleton]
    omega
  · exact fun hw => absurd hw (by rw [hwaiting]; decide)

theorem Sound.clientWaits (h : d.Sound) (howed : d.client.owed ≠ 0) (hstep : d.step .clientWaits = some d') :
    d'.Sound := by
  obtain ⟨-, heq⟩ := Option.ite_none_right_eq_some.mp hstep
  obtain rfl := Option.some.inj heq
  exact { h with waiting := fun _ => howed }

theorem Sound.clientReceives (h : d.Sound) (hstep : d.step .clientReceives = some d') : d'.Sound := by
  obtain ⟨client, toProxy, proxy, toBackend, backend, fromBackend, toClient⟩ := d
  cases toClient with
  | nil => cases hstep
  | cons m toClient =>
    obtain rfl := Option.some.inj hstep
    have hcopy : m.isCopyIn = false := h.noCopyIn m (List.mem_append_right _ List.mem_cons_self)
    obtain ⟨hmid, huncopied⟩ := DialogueClient.receive_eq hcopy h.uncopied
    refine { h with stream := ?_, owed := ?_, waiting := nofun, uncopied := huncopied, noCopyIn := ?_ }
    · exact h.stream.trans (congrArg some hmid.symm)
    · have howed := h.owed
      simp only [List.countP_cons] at howed
      change (if m.isReady then client.owed - 1 else client.owed) =
        toProxy.countP PgMsg.prompts + proxy.busy + toClient.countP PgMsg.isReady
      split at howed <;> simp_all
    · intro m' hm'
      refine h.noCopyIn m' ?_
      rcases List.mem_append.mp hm' with hm' | hm'
      · exact List.mem_append_left _ hm'
      · exact List.mem_append_right _ (List.mem_cons_of_mem m hm')

theorem Sound.proxyReads (h : d.Sound) (hstep : d.step .proxyReads = some d') : d'.Sound := by
  obtain ⟨client, toProxy, proxy, toBackend, backend, fromBackend, toClient⟩ := d
  cases proxy with
  | routing command => cases hstep
  | collecting trip held => cases hstep
  | closed => cases hstep
  | reading begun =>
    cases toProxy with
    | nil => cases hstep
    | cons m toProxy =>
      obtain rfl := Option.some.inj hstep
      have hstream := h.stream
      rw [List.foldlM_cons] at hstream
      obtain ⟨mid, hfollow, hrest⟩ := Option.bind_eq_some_iff.mp hstream
      obtain ⟨hlegal, hmid, hbusy, hcollects⟩ := readCommand_of_follow h.legal hfollow
      have hheld := ProxyPhase.held_of_not_collects hcollects
      refine { h with legal := hlegal, stream := ?_, owed := ?_, noCopyIn := ?_, held := ?_, due := ?_ }
      · exact (congrArg (toProxy.foldlM follow) hmid).trans hrest
      · have howed := h.owed
        rw [List.countP_cons] at howed
        change client.owed = toProxy.countP PgMsg.prompts + (readCommand begun m).busy + toClient.countP PgMsg.isReady
        rw [hbusy, howed]
        exact congrArg (· + _) (Nat.add_right_comm ..)
      · change ∀ m' ∈ fromBackend ++ (readCommand begun m).held ++ toClient, m'.isCopyIn = false
        rw [hheld]
        exact h.noCopyIn
      · change (readCommand begun m).held.countP PgMsg.isReady = 0
        rw [hheld]
        rfl
      · change if (readCommand begun m).collects then _ else _
        rw [hcollects]
        exact h.due

theorem isCommand_of_legal {command : PgCommand} (h : (ProxyPhase.routing command).Legal) (hne : command ≠ .quit) :
    isCommand command.messages = true := h.resolve_left hne

theorem busy_routing {command : PgCommand} (hne : command ≠ .quit) : (ProxyPhase.routing command).busy = 1 := by
  cases command with
  | quit => exact absurd rfl hne
  | query m | stmt pipeline | other m => rfl

theorem Sound.proxySends (h : d.Sound) (hstep : d.step .proxySends = some d') : d'.Sound := by
  obtain ⟨client, toProxy, proxy, toBackend, backend, fromBackend, toClient⟩ := d
  cases proxy with
  | reading begun => cases hstep
  | collecting trip held => cases hstep
  | closed => cases hstep
  | routing command =>
    have hsend (hne : command ≠ .quit) : Sound ⟨client, toProxy, .collecting .forward [],
        toBackend ++ command.messages, backend, fromBackend, toClient⟩ :=
      { h with
        legal := trivial
        owed := h.owed.trans (by rw [busy_routing hne]; rfl)
        held := rfl
        due := h.due.send (isCommand_of_legal h.legal hne) }
    cases command with
    | quit =>
      obtain rfl := Option.some.inj hstep
      exact { h with legal := trivial }
    | query m | stmt pipeline | other m =>
      obtain rfl := Option.some.inj hstep
      exact hsend nofun

theorem Sound.proxyPrepares {statement : List PgMsg} (h : d.Sound)
    (hstep : d.step (.proxyPrepares statement) = some d') : d'.Sound := by
  obtain ⟨client, toProxy, proxy, toBackend, backend, fromBackend, toClient⟩ := d
  obtain ⟨hcommand, hstep⟩ := Option.ite_none_right_eq_some.mp hstep
  cases proxy with
  | collecting trip held => cases hstep
  | closed => cases hstep
  | reading begun =>
    cases begun with
    | cons b begun => cases hstep
    | nil =>
      obtain rfl := Option.some.inj hstep
      exact { h with legal := trivial, held := rfl, due := h.due.send hcommand }
  | routing command =>
    have hprepare (hne : command ≠ .quit) : Sound ⟨client, toProxy, .collecting (.own (some command)) [],
        toBackend ++ statement, backend, fromBackend, toClient⟩ :=
      { h with
        legal := isCommand_of_legal h.legal hne
        owed := h.owed.trans (by rw [busy_routing hne]; rfl)
        held := rfl
        due := h.due.send hcommand }
    cases command with
    | quit => cases hstep
    | query m | stmt pipeline | other m =>
      obtain rfl := Option.some.inj hstep
      exact hprepare nofun

theorem Sound.proxyAnswers {before : List PgMsg} (h : d.Sound)
    (hstep : d.step (.proxyAnswers before m) = some d') : d'.Sound := by
  obtain ⟨client, toProxy, proxy, toBackend, backend, fromBackend, toClient⟩ := d
  cases proxy with
  | reading begun => cases hstep
  | collecting trip held => cases hstep
  | closed => cases hstep
  | routing command =>
    have hanswer (hne : command ≠ .quit) (hready : m.isReady = true ∧ ∀ m ∈ before, m.isReady = false ∧ m.isCopyIn = false) :
        Sound ⟨client, toProxy, .reading [], toBackend, backend, fromBackend, toClient ++ (before ++ [m])⟩ := by
      refine { h with legal := nofun, owed := ?_, noCopyIn := ?_ }
      · have hcount : before.countP PgMsg.isReady = 0 :=
          List.countP_eq_zero.mpr fun b hb => by rw [(hready.2 b hb).1]; exact Bool.false_ne_true
        have howed : client.owed = toProxy.countP PgMsg.prompts + 1 + toClient.countP PgMsg.isReady :=
          h.owed.trans (by rw [busy_routing hne])
        change client.owed = toProxy.countP PgMsg.prompts + 0 + (toClient ++ (before ++ [m])).countP PgMsg.isReady
        rw [howed, List.countP_append, List.countP_append, hcount, List.countP_singleton, if_pos hready.1]
        omega
      · have hm : m.isCopyIn = false := by
          have htag := hready.1
          simp only [PgMsg.isReady, beq_iff_eq] at htag
          simp [PgMsg.isCopyIn, htag]
        have hold := h.noCopyIn
        simp only [List.mem_append, List.mem_singleton] at hold ⊢
        rintro m' (hm' | hm' | hm' | rfl)
        · exact hold m' (Or.inl hm')
        · exact hold m' (Or.inr hm')
        · exact (hready.2 m' hm').2
        · exact hm
    cases command with
    | quit => cases hstep
    | query _ | stmt _ | other _ =>
      obtain ⟨hready, heq⟩ := Option.ite_none_right_eq_some.mp hstep
      obtain rfl := Option.some.inj heq
      exact hanswer nofun hready

theorem Sound.proxyCollects (h : d.Sound) (hstep : d.step .proxyCollects = some d') : d'.Sound := by
  obtain ⟨client, toProxy, proxy, toBackend, backend, fromBackend, toClient⟩ := d
  cases proxy with
  | reading begun => cases hstep
  | routing command => cases hstep
  | closed => cases hstep
  | collecting trip held =>
    cases fromBackend with
    | nil => cases hstep
    | cons m fromBackend =>
      have hdue := (show Due toBackend backend (m :: fromBackend) from h.due).collects
      have hheld : held.countP PgMsg.isReady = 0 := h.held
      have hold : ∀ m' ∈ m :: fromBackend ++ held ++ toClient, m'.isCopyIn = false := h.noCopyIn
      dsimp only [step] at hstep
      by_cases hready : m.isReady = true
      · rw [if_pos hready] at hstep hdue
        cases trip with
        | forward =>
          -- the `ReadyForQuery` that was due to the client is on its way to it
          obtain rfl := Option.some.inj hstep
          refine { h with legal := nofun, owed := ?_, noCopyIn := ?_, held := rfl, due := hdue }
          · have howed : client.owed = toProxy.countP PgMsg.prompts + 1 + toClient.countP PgMsg.isReady := h.owed
            change client.owed = toProxy.countP PgMsg.prompts + 0 + (toClient ++ (held ++ [m])).countP PgMsg.isReady
            rw [howed, List.countP_append, List.countP_append, hheld, List.countP_singleton, if_pos hready]
            omega
          · intro m' hm'
            refine hold m' ?_
            simp only [ProxyPhase.held, List.mem_append, List.mem_cons, List.not_mem_nil, or_false] at hm' ⊢
            tauto
        | own next =>
          cases next with
          | none =>
            obtain rfl := Option.some.inj hstep
            refine { h with legal := nofun, noCopyIn := ?_, held := rfl, due := hdue }
            intro m' hm'
            refine hold m' ?_
            simp only [ProxyPhase.held, List.mem_append, List.mem_cons, List.not_mem_nil, or_false] at hm' ⊢
            tauto
          | some command =>
            obtain rfl := Option.some.inj hstep
            have hcommand : isCommand command.messages = true := h.legal
            have hne : command ≠ .quit := by rintro rfl; cases hcommand
            refine { h with legal := Or.inr hcommand, owed := ?_, noCopyIn := ?_, held := rfl, due := hdue }
            · exact h.owed.trans (by rw [busy_routing hne]; rfl)
            · intro m' hm'
              refine hold m' ?_
              simp only [ProxyPhase.held, List.mem_append, List.mem_cons, List.not_mem_nil, or_false] at hm' ⊢
              tauto
      · rw [if_neg hready] at hstep hdue
        obtain rfl := Option.some.inj hstep
        have hlegal : (ProxyPhase.collecting trip (held ++ [m])).Legal := by
          rcases trip with _ | _ | command <;> exact h.legal
        have hbusy : (ProxyPhase.collecting trip (held ++ [m])).busy = (ProxyPhase.collecting trip held).busy := by
          rcases trip with _ | _ | command <;> rfl
        refine { h with legal := hlegal, owed := ?_, noCopyIn := ?_, held := ?_, due := hdue }
        · exact h.owed.trans (by rw [hbusy])
        · intro m' hm'
          refine hold m' ?_
          simp only [ProxyPhase.held, List.mem_append, List.mem_cons, List.not_mem_nil, or_false] at hm' ⊢
          tauto
        · exact (countP_isReady_append (Bool.eq_false_iff.mpr hready)).trans hheld

theorem Sound.backendReads (h : d.Sound) (hstep : d.step .backendReads = some d') : d'.Sound := by
  obtain ⟨client, toProxy, proxy, toBackend, backend, fromBackend, toClient⟩ := d
  cases toBackend with
  | nil => cases hstep
  | cons m toBackend =>
    obtain ⟨-, heq⟩ := Option.ite_none_right_eq_some.mp hstep
    obtain rfl := Option.some.inj heq
    have hdue : if proxy.collects then Due (m :: toBackend) backend fromBackend
        else Rested (m :: toBackend) backend fromBackend := h.due
    by_cases hcollects : proxy.collects = true
    · rw [if_pos hcollects] at hdue
      exact { h with due := (if_pos hcollects).mpr hdue.reads }
    · rw [if_neg hcollects] at hdue
      cases hdue.empty

theorem Sound.backendSends (h : d.Sound) (hcopy : m.isCopyIn = false)
    (hstep : d.step (.backendSends m) = some d') : d'.Sound := by
  obtain ⟨backend, hsend, rfl⟩ := Option.map_eq_some_iff.mp hstep
  refine { h with noCopyIn := ?_, due := ?_ }
  · intro m' hm'
    rcases List.mem_append.mp hm' with hm' | hm'
    · rcases List.mem_append.mp hm' with hm' | hm'
      · rcases List.mem_append.mp hm' with hm' | hm'
        · exact h.noCopyIn m' (List.mem_append_left _ (List.mem_append_left _ hm'))
        · exact List.mem_singleton.mp hm' ▸ hcopy
      · exact h.noCopyIn m' (List.mem_append_left _ (List.mem_append_right _ hm'))
    · exact h.noCopyIn m' (List.mem_append_right _ hm')
  · have hdue := h.due
    by_cases hcollects : d.proxy.collects = true
    · rw [if_pos hcollects] at hdue
      exact (if_pos hcollects).mpr (hdue.sends hsend hcopy)
    · rw [if_neg hcollects] at hdue
      exact (if_neg hcollects).mpr (hdue.sends hsend hcopy)

theorem Sound.backendFlushed (h : d.Sound) (hstep : d.step .backendFlushed = some d') : d'.Sound := by
  obtain ⟨client, toProxy, proxy, toBackend, backend, fromBackend, toClient⟩ := d
  obtain ⟨rfl, heq⟩ := Option.ite_none_right_eq_some.mp hstep
  obtain rfl := Option.some.inj heq
  have hdue : if proxy.collects then Due toBackend .flushing fromBackend
      else Rested toBackend .flushing fromBackend := h.due
  by_cases hcollects : proxy.collects = true
  · rw [if_pos hcollects] at hdue
    exact { h with due := (if_pos hcollects).mpr hdue.flushed }
  · rw [if_neg hcollects] at hdue
    cases hdue.ready

theorem sound_step {e : DialogueEvent} (h : d.Sound) (hok : d.Unpaused e) (hstep : d.step e = some d') : d'.Sound := by
  cases e with
  | clientSends m => exact h.clientSends hstep
  | clientWaits => exact h.clientWaits hok hstep
  | clientReceives => exact h.clientReceives hstep
  | proxyReads => exact h.proxyReads hstep
  | proxySends => exact h.proxySends hstep
  | proxyPrepares statement => exact h.proxyPrepares hstep
  | proxyAnswers before ready => exact h.proxyAnswers hstep
  | proxyCollects => exact h.proxyCollects hstep
  | backendReads => exact h.backendReads hstep
  | backendSends m => exact h.backendSends hok hstep
  | backendFlushed => exact h.backendFlushed hstep

/-- Without a pause nobody waits for what the proxy holds back. -/
theorem Sound.not_mutualWait (h : d.Sound) : ¬ d.MutualWait := by
  rintro ⟨⟨hwaiting, htoClient⟩, ⟨hinput, htoBackend⟩, hholds⟩
  obtain ⟨client, toProxy, proxy, toBackend, backend, fromBackend, toClient⟩ := d
  obtain rfl : toClient = [] := htoClient
  obtain rfl : toBackend = [] := htoBackend
  cases proxy with
  | routing command => exact hholds
  | closed => exact hholds
  | reading begun =>
    -- all that the client sent is the beginning of a pipeline, and so it is owed nothing
    obtain ⟨-, rfl⟩ : begun ≠ [] ∧ toProxy = [] := hholds
    exact h.waiting hwaiting h.owed
  | collecting trip held =>
    obtain ⟨-, rfl⟩ : held ≠ [] ∧ fromBackend = [] := hholds
    have hdue : Due [] backend [] := h.due
    exact Bool.false_ne_true (hdue.not_stuck.symm.trans hinput)

/-- In every run without a pause, at every moment, no two buffers wait for each other. -/
theorem waits_resolve {es : List DialogueEvent} (h : Steps step Unpaused start es d) : ¬ d.MutualWait :=
  (h.induct (fun _ _ _ hs hok hst => sound_step hs hok hst) sound_start).not_mutualWait

/-- A message of this type. -/
def message (tag : UInt8) : PgMsg := ⟨tag, [], by decide⟩

instance (d : Dialogue) : Decidable d.Withholds :=
  match d with
  | ⟨_, toProxy, .reading begun, _, _, _, _⟩ => inferInstanceAs (Decidable (begun ≠ [] ∧ toProxy = []))
  | ⟨_, _, .collecting _ held, _, _, fromBackend, _⟩ => inferInstanceAs (Decidable (held ≠ [] ∧ fromBackend = []))
  | ⟨_, _, .routing _, _, _, _, _⟩ | ⟨_, _, .closed, _, _, _, _⟩ => .isFalse id

instance (d : Dialogue) : Decidable d.MutualWait :=
  decidable_of_iff ((d.client.waiting = true ∧ d.toClient = []) ∧
    (d.backend.waitsForInput = true ∧ d.toBackend = []) ∧ d.Withholds)
    ⟨fun ⟨client, backend, proxy⟩ => ⟨client, backend, proxy⟩, fun h => ⟨h.client, h.backend, h.proxy⟩⟩

/-- A pipeline with a `Flush` in it, up to its `Sync`. -/
def flushedPipeline : List DialogueEvent :=
  [.clientSends (message 0x50), .clientSends (message 0x48), .clientSends (message 0x45), .proxyReads,
    .clientSends (message 0x53), .clientWaits, .proxyReads, .proxyReads, .proxyReads, .proxySends, .backendReads,
    .backendReads, .backendSends (message 0x31), .backendFlushed, .backendReads, .backendReads, .proxyCollects,
    .backendSends (message 0x43), .backendSends (message 0x5A), .proxyCollects, .proxyCollects, .clientReceives]

theorem waits_resolve_flushedPipeline :
    ∃ d, run step start flushedPipeline = some d ∧ ¬ d.MutualWait := by
  obtain ⟨d, hd⟩ := Option.isSome_iff_exists.mp (show (run (fun d e => if decide (Unpaused d e) then step d e
    else none) start flushedPipeline).isSome = true by decide +kernel)
  have hsteps := steps_of_checked (fun _ _ h => of_decide_eq_true h) hd
  exact ⟨d, hsteps.run, waits_resolve hsteps⟩

/-- `COPY t FROM STDIN` -/
def copyFromStdin : List DialogueEvent :=
  [.clientSends (message 0x51), .clientWaits, .proxyReads, .proxySends, .backendReads,
    .backendSends (message 0x47), .proxyCollects]

/-- `Parse`, `Flush`, and the client waits for the answer. -/
def parseAndFlush : List DialogueEvent :=
  [.clientSends (message 0x50), .clientSends (message 0x48), .clientWaits, .proxyReads, .proxyReads]

/-- The proxy keeps the backend's `CopyInResponse`, or the client's `Flush`. -/
theorem copy_and_flush_hang :
    (run step start copyFromStdin).any (fun d => d.MutualWait) = true ∧
      (run step start parseAndFlush).any (fun d => d.MutualWait) = true := by
  decide +kernel

end Dialogue

end TurbineProxy
