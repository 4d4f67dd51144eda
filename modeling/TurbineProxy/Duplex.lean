import Mathlib.Data.List.Basic
import Mathlib.Logic.Relation

/-!
# Conversations

A library layer, independent of the proxy. Two parties are joined by a stream in each direction.

* `Party` — **one end** of a conversation: it writes, reads as much as it asks for, and ends with a value or an error.
* `Duplex` — **both ends**, and what was written and is not yet read. A party fails when it waits for bytes that nobody
  is left to write; and when its peer is gone and has not read everything, it may fail whatever it does.
* `Party.against` — one end alone, on a stream that is all there.

A step of a `Duplex.Run` is of either end, at any time. `Duplex.Run.against` says that a party ends as it does on the
bytes that the other one has written, whatever the schedule was, and `Duplex.Run.any_peer_iff` that nothing else can be
said of it without knowing its peer.
-/

namespace TurbineProxy

/-! ## One end -/

/-- One end of a conversation. -/
inductive Party (β ε α : Type) : Type where
  /-- it is over -/
  | done (result : Except ε α)
  /-- write bytes, and go on -/
  | write (bytes : List β) (next : Party β ε α)
  /-- read so many bytes, and go on with them -/
  | read (n : Nat) (next : List β → Party β ε α)

namespace Party

variable {β ε α γ : Type}

/-- Go on with the value; an error ends it. -/
protected def bind : Party β ε α → (α → Party β ε γ) → Party β ε γ
  | done (.ok a), f => f a
  | done (.error e), _ => done (.error e)
  | write bytes next, f => write bytes (next.bind f)
  | read n next, f => read n fun bytes => (next bytes).bind f

instance : Monad (Party β ε) where
  pure a := done (.ok a)
  bind := Party.bind

/-- Write. -/
def send (bytes : List β) : Party β ε Unit := write bytes (done (.ok ()))

/-- Read. -/
def receive (n : Nat) : Party β ε (List β) := read n fun bytes => done (.ok bytes)

/-- End with an error. -/
def fail (e : ε) : Party β ε α := done (.error e)

@[simp] theorem pure_eq (a : α) : (pure a : Party β ε α) = done (.ok a) := rfl

@[simp] theorem ok_bind (a : α) (f : α → Party β ε γ) : done (.ok a) >>= f = f a := rfl

@[simp] theorem write_bind (bytes : List β) (next : Party β ε α) (f : α → Party β ε γ) :
    write bytes next >>= f = write bytes (next >>= f) := rfl

@[simp] theorem read_bind (n : Nat) (next : List β → Party β ε α) (f : α → Party β ε γ) :
    read n next >>= f = read n fun bytes => next bytes >>= f := rfl

@[simp] theorem send_bind (bytes : List β) (f : Unit → Party β ε γ) : send bytes >>= f = write bytes (f ()) := rfl

@[simp] theorem receive_bind (n : Nat) (f : List β → Party β ε γ) : receive n >>= f = read n f := rfl

instance : LawfulMonad (Party β ε) := .mk' (Party β ε)
  (fun p => by
    induction p with
    | done result => cases result <;> rfl
    | write bytes next ih => exact congrArg (write bytes) ih
    | read n next ih => exact congrArg (read n) (funext ih))
  (fun _ _ => rfl)
  (fun p f g => by
    induction p with
    | done result => cases result <;> rfl
    | write bytes next ih => exact congrArg (write bytes) ih
    | read n next ih => exact congrArg (read n) (funext ih))

/-- One end alone, on the stream it reads from: what it writes, and how it ends, with what it has not read. -/
def against (io : ε) : Party β ε α → List β → List β × Except ε (α × List β)
  | done result, stream => ([], result.map (·, stream))
  | write bytes next, stream => (bytes ++ (next.against io stream).1, (next.against io stream).2)
  | read n next, stream =>
    if n ≤ stream.length then (next (stream.take n)).against io (stream.drop n) else ([], .error io)

section Against

variable {io : ε} {stream : List β}

@[simp] theorem against_ok (a : α) : (done (.ok a) : Party β ε α).against io stream = ([], .ok (a, stream)) := rfl

theorem against_write (bytes : List β) (next : Party β ε α) : (write bytes next).against io stream =
    (bytes ++ (next.against io stream).1, (next.against io stream).2) := rfl

theorem against_read (n : Nat) (next : List β → Party β ε α) : (read n next).against io stream =
    if n ≤ stream.length then (next (stream.take n)).against io (stream.drop n) else ([], .error io) := rfl

/-- A peer that talks to two programs one after the other. -/
theorem against_bind (p : Party β ε α) (f : α → Party β ε γ) : (p >>= f).against io stream =
    match p.against io stream with
    | (written, .ok (a, rest)) => (written ++ ((f a).against io rest).1, ((f a).against io rest).2)
    | (written, .error e) => (written, .error e) := by
  induction p generalizing stream with
  | done result => cases result <;> rfl
  | write bytes next ih =>
    rw [write_bind, against_write, against_write, ih]
    rcases next.against io stream with ⟨written, _ | ⟨a, rest⟩⟩ <;> simp
  | read n next ih =>
    rw [read_bind, against_read, against_read]
    split
    · exact ih _
    · rfl

/-- Two parties one after the other end with a value just if both do. -/
theorem against_bind_eq_ok {p : Party β ε α} {f : α → Party β ε γ} {written rest : List β} {c : γ} :
    (p >>= f).against io stream = (written, .ok (c, rest)) ↔ ∃ a w₁ w₂ mid, written = w₁ ++ w₂ ∧
      p.against io stream = (w₁, .ok (a, mid)) ∧ (f a).against io mid = (w₂, .ok (c, rest)) := by
  rw [against_bind]
  rcases hp : p.against io stream with ⟨w₁, _ | ⟨a, mid⟩⟩
  · refine iff_of_false (fun h => by cases congrArg Prod.snd h) ?_
    rintro ⟨a, w, w', mid, -, heq, -⟩
    cases congrArg Prod.snd heq
  · constructor
    · intro h
      obtain ⟨rfl, hrest⟩ := Prod.ext_iff.mp h
      exact ⟨a, w₁, ((f a).against io mid).1, mid, rfl, rfl, Prod.ext rfl hrest⟩
    · rintro ⟨a', w, w', mid', rfl, heq, hf⟩
      cases heq
      dsimp only
      rw [hf]

theorem against_write_eq_ok {bytes written : List β} {next : Party β ε α} {r : α × List β} :
    (write bytes next).against io stream = (written, .ok r) ↔
      ∃ w, written = bytes ++ w ∧ next.against io stream = (w, .ok r) := by
  rw [against_write]
  constructor
  · intro h
    obtain ⟨rfl, hr⟩ := Prod.ext_iff.mp h
    exact ⟨_, rfl, Prod.ext rfl hr⟩
  · rintro ⟨w, rfl, h⟩
    rw [h]

@[simp] theorem against_fail (e : ε) : (fail e : Party β ε α).against io stream = ([], .error e) := rfl

theorem against_receive_eq_ok {n : Nat} {written bytes rest : List β} :
    (receive n).against io stream = (written, .ok (bytes, rest)) ↔
      written = [] ∧ stream = bytes ++ rest ∧ bytes.length = n := by
  rw [receive, against_read]
  split
  · rename_i hlen
    rw [against_ok]
    constructor
    · intro h
      cases h
      exact ⟨rfl, (List.take_append_drop n stream).symm, List.length_take_of_le hlen⟩
    · rintro ⟨rfl, rfl, hn⟩
      rw [List.take_left' hn, List.drop_left' hn]
  · rename_i hlen
    refine iff_of_false (fun h => by cases congrArg Prod.snd h) ?_
    rintro ⟨-, rfl, hn⟩
    exact hlen (by simp [← hn])

end Against

/-- It is over. -/
def Ended (p : Party β ε α) : Prop := ∃ result, p = done result

/-- One step of one end, from what is there to read to what is left of it, and what it writes. The peer is `gone`, or it
is and has left bytes unread: `reset`. -/
inductive Move (io : ε) (gone reset : Prop) : Party β ε α → List β → Party β ε α → List β → List β → Prop where
  /-- it writes -/
  | write (bytes : List β) (next : Party β ε α) (inp : List β) :
    Move io gone reset (write bytes next) inp next inp bytes
  /-- it reads -/
  | read (n : Nat) (next : List β → Party β ε α) (inp : List β) (hlen : n ≤ inp.length) :
    Move io gone reset (read n next) inp (next (inp.take n)) (inp.drop n) []
  /-- it waits in vain -/
  | starve (n : Nat) (next : List β → Party β ε α) (inp : List β) (hlen : inp.length < n) (hgone : gone) :
    Move io gone reset (read n next) inp (done (.error io)) inp []
  /-- it is cut off -/
  | cut (p : Party β ε α) (inp : List β) (hlive : ¬p.Ended) (hreset : reset) :
    Move io gone reset p inp (done (.error io)) inp []

end Party

/-! ## Both ends -/

/-- A conversation: both ends, and what is on its way to each of them. -/
structure Duplex (β ε α γ : Type) : Type where
  near : Party β ε α
  far : Party β ε γ
  toNear : List β
  toFar : List β

namespace Duplex

variable {β ε α γ : Type}

/-- A conversation begins. -/
def start (near : Party β ε α) (far : Party β ε γ) : Duplex β ε α γ := ⟨near, far, [], []⟩

/-- The same conversation from the other end. -/
def swap (d : Duplex β ε α γ) : Duplex β ε γ α := ⟨d.far, d.near, d.toFar, d.toNear⟩

/-! ## Any run -/

/-- A run, and what either end writes in the course of it. -/
inductive Run (io : ε) : Duplex β ε α γ → List β → List β → Duplex β ε α γ → Prop where
  /-- nothing happens -/
  | none (d : Duplex β ε α γ) : Run io d [] [] d
  /-- a step of the one, and then the others -/
  | near {p p' : Party β ε α} {q : Party β ε γ} {inp inp' out toFar w v : List β} {e : Duplex β ε α γ}
    (move : p.Move io q.Ended (q.Ended ∧ toFar ≠ []) inp p' inp' out)
    (rest : Run io ⟨p', q, inp', toFar ++ out⟩ w v e) : Run io ⟨p, q, inp, toFar⟩ (out ++ w) v e
  /-- a step of the other, and then the others -/
  | far {p : Party β ε α} {q q' : Party β ε γ} {inp inp' out toNear w v : List β} {e : Duplex β ε α γ}
    (move : q.Move io p.Ended (p.Ended ∧ toNear ≠ []) inp q' inp' out)
    (rest : Run io ⟨p, q', toNear ++ out, inp'⟩ w v e) : Run io ⟨p, q, toNear, inp⟩ w (out ++ v) e

theorem Run.swap {io : ε} {d e : Duplex β ε α γ} {w v : List β} (h : Run io d w v e) : Run io d.swap v w e.swap := by
  induction h with
  | none d => exact .none _
  | near move _ ih => exact .far move ih
  | far move _ ih => exact .near move ih

/-- An end that is over stays so. -/
theorem Run.near_done {io : ε} {d e : Duplex β ε α γ} {w v : List β} (h : Run io d w v e) {r : Except ε α}
    (hd : d.near = .done r) : e.near = .done r ∧ w = [] ∧ e.toNear = d.toNear ++ v := by
  induction h with
  | none d => exact ⟨hd, rfl, (List.append_nil _).symm⟩
  | near move _ ih =>
    dsimp only at hd
    subst hd
    cases move with
    | cut _ _ hlive _ => exact absurd ⟨r, rfl⟩ hlive
  | far move _ ih =>
    obtain ⟨hnear, hw, hto⟩ := ih hd
    refine ⟨hnear, hw, ?_⟩
    rw [hto, List.append_assoc]

/-- **What a party ends with**: if it is a value, it is what the party makes of the bytes that its peer has written, and
it has written what it writes on these. -/
theorem Run.against {io : ε} {d e : Duplex β ε α γ} {w v : List β} (h : Run io d w v e) {a : α}
    (hend : e.near = .done (.ok a)) : d.near.against io (d.toNear ++ v) = (w, .ok (a, e.toNear)) := by
  induction h with
  | none d =>
    rw [hend, List.append_nil]
    rfl
  | near move rest ih =>
    cases move with
    | write bytes next inp =>
      dsimp only
      rw [Party.against_write, ih hend]
    | read n next inp hlen =>
      dsimp only at ih ⊢
      rw [Party.against_read, if_pos (by simp; omega), List.take_append_of_le_length hlen,
        List.drop_append_of_le_length hlen, ih hend]
      rfl
    | starve =>
      rw [(rest.near_done rfl).1] at hend
      cases hend
    | cut =>
      rw [(rest.near_done rfl).1] at hend
      cases hend
  | far move _ ih =>
    rw [← ih hend, List.append_assoc]

/-- And every way it ends alone on a stream is a run: the bytes are there, and it takes all the steps. -/
theorem Run.of_against {io : ε} {p : Party β ε α} {q : Party β ε γ} {c : γ} {w stream rest toNear : List β}
    (h : q.against io stream = (w, .ok (c, rest))) :
    Run io ⟨p, q, toNear, stream⟩ [] w ⟨p, .done (.ok c), toNear ++ w, rest⟩ := by
  induction q generalizing w stream toNear with
  | done result =>
    cases result with
    | error e => cases congrArg Prod.snd h
    | ok c' =>
      cases h
      rw [List.append_nil]
      exact .none _
  | write bytes next ih =>
    obtain ⟨v, rfl, hnext⟩ := Party.against_write_eq_ok.mp h
    have hrest : Run io ⟨p, next, toNear ++ bytes, stream⟩ [] v ⟨p, .done (.ok c), toNear ++ bytes ++ v, rest⟩ :=
      ih hnext
    rw [List.append_assoc] at hrest
    exact .far (.write bytes next stream) hrest
  | read n next ih =>
    rw [Party.against_read] at h
    split at h
    · rename_i hlen
      have hrest : Run io ⟨p, next (stream.take n), toNear ++ [], stream.drop n⟩ [] w
          ⟨p, .done (.ok c), toNear ++ [] ++ w, rest⟩ := ih _ h
      have hread := Run.far (.read n next stream hlen) hrest
      rwa [List.nil_append, List.append_nil] at hread
    · cases congrArg Prod.snd h

/-- So a party may end with a value in some conversation just if it does alone on what its peer has written. -/
theorem Run.any_peer_iff {io : ε} {q : Party β ε γ} {c : γ} {written told rest : List β} :
    (∃ (α : Type) (peer : Party β ε α) (e : Duplex β ε α γ),
      Run io (start peer q) written told e ∧ e.far = .done (.ok c) ∧ e.toFar = rest) ↔
      q.against io written = (told, .ok (c, rest)) := by
  constructor
  · rintro ⟨α, peer, e, hrun, hend, rfl⟩
    exact hrun.swap.against hend
  · intro h
    have halone : Run io ⟨(.done (.ok ()) : Party β ε Unit), q, [], [] ++ written⟩ [] told
        ⟨.done (.ok ()), .done (.ok c), [] ++ told, rest⟩ := .of_against h
    have hrun := Run.near (.write written (.done (.ok ())) []) halone
    rw [List.append_nil] at hrun
    exact ⟨Unit, .write written (.done (.ok ())), _, hrun, rfl, rfl⟩

end Duplex

end TurbineProxy
