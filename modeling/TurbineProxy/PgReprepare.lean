import TurbineProxy.AtMostOnce
import TurbineProxy.PgPipelines

/-!
# Preparing a client's statements again

When the statement connection is lost while a pipeline runs, `route_stmt_pg_shadow_inner` takes a fresh
one, prepares on it what the shadow knows, and sends the pipeline again. The shadow knows names and
texts, decoded, as they are after the pipeline.

`statements_restored` says when the pipeline finds what it needs, as the client prepared it.
-/

namespace TurbineProxy

/-! ## The client's statements -/

/-- The statements of one connection: query and parameter types by name. -/
abbrev PgStatements : Type := Bytes → Option (Bytes × List Nat)

/-- The parameter types of a `Parse`, four bytes each. -/
def oidsOf : Bytes → List Nat
  | a :: b :: c :: d :: rest => le32 d c b a :: oidsOf rest
  | _ => []

/-- The parameter types at the end of a `Parse`: their number, then the types. -/
def typeOids : Bytes → List Nat
  | a :: b :: rest => (oidsOf rest).take (a.toNat * 2 ^ 8 + b.toNat)
  | _ => []

/-- What a backend does with one message. -/
def PgStatements.perform (B : PgStatements) (m : PgMsg) : PgStatements :=
  match m.act with
  | some (.parse name query types) => Function.update B name (some (query, typeOids types))
  | some (.close name) => Function.update B name none
  | none => B

/-- The loop of a backend that reads a pipeline. -/
def readPipelineLoop : Nat → Bytes → List PgMsg
  | 0, _ => []
  | n + 1, raw =>
    match raw with
    | tag :: a :: b :: c :: d :: rest =>
      if h : le32 d c b a < 4 ∨ rest.length < le32 d c b a - 4 then []
      else
        ⟨tag, rest.take (le32 d c b a - 4), by
          have hlt := le32_lt d c b a
          rw [List.length_take]
          omega⟩ :: readPipelineLoop n (rest.drop (le32 d c b a - 4))
    | _ => []

/-- A backend reads a pipeline. -/
def readPipeline (raw : Bytes) : List PgMsg := readPipelineLoop (raw.length + 1) raw

/-- The statements after a pipeline. -/
def PgStatements.performAll (B : PgStatements) (raw : Bytes) : PgStatements :=
  (readPipeline raw).foldl perform B

/-- The statement a message needs: `Bind`, or `Describe` of a statement. To `Close` a statement that is
not there is not an error. -/
def PgMsg.uses (m : PgMsg) : Option Bytes :=
  if m.tag = 0x42 then (splitNul m.payload).bind fun p => (splitNul p.2).map Prod.fst
  else if m.tag = 0x44 ∧ m.payload.head? = some 0x53 then (splitNul m.payload.tail).map Prod.fst
  else none

/-- A pipeline needs a statement from before: it uses the name before it parses or closes it itself. -/
def usesFirst (n : Bytes) : List PgMsg → Bool
  | [] => false
  | m :: msgs =>
    if m.uses = some n then true
    else if m.act.map PgAct.name = some n then false else usesFirst n msgs

/-- The statements of a client after a history of successful pipelines. -/
def clientStatements (history : List (List PgMsg)) : PgStatements :=
  history.flatten.foldl PgStatements.perform fun _ => none

/-- The shadow after the same history. -/
def shadowAfter (history : List (List PgMsg)) : PgStmtShadow :=
  history.foldl (fun s msgs => s.applyScan (scanPgPipeline (pipelineBytes msgs))) .new

/-! ## The statement connection is lost -/

/-- What happens while a pipeline is routed whose connection is lost. -/
structure Replay where
  /-- the connection has been lost -/
  lost : Bool
  /-- the statements of the fresh connection -/
  statements : PgStatements
  /-- the statements the pipeline finds there when it is sent again -/
  found : Option PgStatements

/-- The first exchange fails with `e`; the fresh connection performs what it is sent; everything else is
answered by `world`. -/
def Replay.handle (world : (o : Op) → Res o) (e : Str) (r : Replay) (o : Op) : Replay × Res o :=
  match o with
  | .talk .client _ _ _ _ =>
    if r.lost then ({ r with found := some r.statements }, .ok ⟨[], false, [], none⟩)
    else ({ r with lost := true }, .error (.protocol e))
  | .talk .reprepare _ _ (.raw bytes) _ =>
    ({ r with statements := r.statements.performAll bytes }, .ok ⟨[], false, [], none⟩)
  | o => (r, world o)

/-- What the next pipeline finds on the fresh connection, after a history of pipelines. -/
def statementsFound (world : (o : Op) → Res o) (e : Str) (history : List (List PgMsg)) (next : List PgMsg)
    (c : ConnId) (txConn : Option ConnId) (database : Option Str) : Option PgStatements :=
  let raw := pipelineBytes next
  let scan := scanPgPipeline raw
  ((routeStmtPgShadowInner raw scan ((shadowAfter history).applyScan scan) (some c) txConn false
    database).runWith (Replay.handle world e) ⟨false, fun _ => none, none⟩).1.found

/-! ## Texts on the wire -/

/-- Bytes that survive being decoded. -/
def IsText (b : Bytes) : Prop := toUtf8 (fromUtf8Lossy b) = b

instance : DecidablePred IsText := fun b => inferInstanceAs (Decidable (toUtf8 (fromUtf8Lossy b) = b))

/-- Name and query are texts, and all fields are there. -/
def PgAct.Plain : PgAct → Prop
  | .parse name query types => IsText name ∧ IsText query ∧ 2 ≤ types.length
  | .close name => IsText name

instance : DecidablePred PgAct.Plain
  | .parse name query types =>
    inferInstanceAs (Decidable (IsText name ∧ IsText query ∧ 2 ≤ types.length))
  | .close name => inferInstanceAs (Decidable (IsText name))

/-- What the message does to statements, if anything, is plain. -/
abbrev PgMsg.Plain (m : PgMsg) : Prop := ∀ a ∈ m.act, a.Plain

theorem splitNul_eq_some {b u v : Bytes} (h : splitNul b = some (u, v)) :
    b = u ++ 0 :: v ∧ (0 : UInt8) ∉ u := by
  induction b generalizing u with
  | nil => cases h
  | cons x b ih =>
    rw [splitNul] at h
    split at h
    · rename_i hx
      cases h
      simp [hx]
    · rename_i hx
      obtain ⟨⟨u', v'⟩, h', heq⟩ := Option.map_eq_some_iff.mp h
      cases heq
      obtain ⟨rfl, hnot⟩ := ih h'
      exact ⟨rfl, by simpa [Ne.symm hx] using hnot⟩

theorem splitNul_append {u : Bytes} (v : Bytes) (h : (0 : UInt8) ∉ u) :
    splitNul (u ++ 0 :: v) = some (u, v) := by
  induction u with
  | nil => simp [splitNul]
  | cons x u ih =>
    obtain ⟨hx, hu⟩ := not_or.mp (List.mem_cons.not.mp h)
    simp [splitNul, Ne.symm hx, ih hu]

/-- A backend reads what a pipeline is made of. -/
theorem readPipelineLoop_pipeline (msgs : List PgMsg) (n : Nat) :
    readPipelineLoop (msgs.length + n) (pipelineBytes msgs) = msgs := by
  induction msgs with
  | nil => cases n <;> rfl
  | cons m msgs ih =>
    obtain ⟨a, b, c, d, hraw, hlen⟩ := buildPgRaw_append m.tag m.small (pipelineBytes msgs)
    have hshort : ¬(le32 d c b a < 4 ∨
        (m.payload ++ pipelineBytes msgs).length < le32 d c b a - 4) := by
      rw [hlen, List.length_append]
      omega
    have htake : (m.payload ++ pipelineBytes msgs).take (le32 d c b a - 4) = m.payload := by
      simp [hlen]
    have hdrop : (m.payload ++ pipelineBytes msgs).drop (le32 d c b a - 4) = pipelineBytes msgs := by
      simp [hlen]
    have hcons : pipelineBytes (m :: msgs) = buildPgRaw m.tag m.payload ++ pipelineBytes msgs := by
      simp [pipelineBytes]
    rw [hcons, hraw, List.length_cons, Nat.add_right_comm]
    simp only [readPipelineLoop, dif_neg hshort, htake, hdrop, ih]

theorem readPipeline_pipeline (msgs : List PgMsg) : readPipeline (pipelineBytes msgs) = msgs := by
  obtain ⟨n, hn⟩ := Nat.exists_eq_add_of_le (length_le_pipeline msgs)
  rw [readPipeline, hn, Nat.add_assoc]
  exact readPipelineLoop_pipeline msgs _

/-! ## Entries of the shadow -/

/-- An entry of the shadow that goes over the wire as it came. -/
structure Wired (e : Str × Str) : Prop where
  /-- it has a name -/
  named : e.1 ≠ []
  /-- the name is what its bytes decode to -/
  decodes : fromUtf8Lossy (toUtf8 e.1) = e.1
  /-- no byte of the name ends it -/
  name : (0 : UInt8) ∉ toUtf8 e.1
  /-- nor of the query -/
  query : (0 : UInt8) ∉ toUtf8 e.2
  /-- they fit into a message -/
  fits : (toUtf8 e.1).length + (toUtf8 e.2).length + 8 < 2 ^ 32

/-- A backend reads a `Parse` of the entry, then `Sync`. -/
theorem readPipeline_reparse {e : Str × Str} (he : Wired e) :
    ∃ parse sync, readPipeline (buildPgReparse e.1 e.2) = [parse, sync] ∧
      parse.act = some (.parse (toUtf8 e.1) (toUtf8 e.2) [0, 0]) ∧ sync.act = none ∧ sync.tag = 0x53 := by
  have hfits := he.fits
  let parse : PgMsg := ⟨0x50, toUtf8 e.1 ++ [0] ++ toUtf8 e.2 ++ [0] ++ [0, 0], by
    simp only [List.length_append, List.length_cons, List.length_nil]
    omega⟩
  let sync : PgMsg := ⟨0x53, [], by decide⟩
  have hpipeline : buildPgReparse e.1 e.2 = pipelineBytes [parse, sync] := by
    simp [parse, sync, buildPgReparse, pipelineBytes]
  refine ⟨parse, sync, ?_, ?_, by decide, rfl⟩
  · rw [hpipeline, readPipeline_pipeline]
  · simp [parse, PgMsg.act, splitNul_append _ he.name, splitNul_append _ he.query]

/-- Preparing an entry again registers its name and its query, without parameter types. -/
theorem performAll_reparse {e : Str × Str} (he : Wired e) (B : PgStatements) :
    B.performAll (buildPgReparse e.1 e.2) =
      Function.update B (toUtf8 e.1) (some (toUtf8 e.2, [])) := by
  obtain ⟨parse, sync, hread, hparse, hsync, -⟩ := readPipeline_reparse he
  rw [PgStatements.performAll, hread, List.foldl_cons, List.foldl_cons, List.foldl_nil,
    PgStatements.perform, PgStatements.perform, hparse, hsync]
  rfl

/-- What a list of entries, prepared one after the other, leaves under a name. -/
theorem foldl_reparse (l : List (Str × Str)) (hl : ∀ e ∈ l, Wired e) (hkeys : (l.map Prod.fst).Nodup)
    (B : PgStatements) (n : Bytes) :
    (l.foldl (fun B e => B.performAll (buildPgReparse e.1 e.2)) B) n =
      if IsText n then ((l.lookup (fromUtf8Lossy n)).map fun q => (toUtf8 q, [])).or (B n) else B n := by
  induction l generalizing B with
  | nil => simp
  | cons e l ih =>
    obtain ⟨k, q⟩ := e
    have he : Wired (k, q) := hl _ List.mem_cons_self
    obtain ⟨hnew, hkeys'⟩ := List.nodup_cons.mp hkeys
    have hk : fromUtf8Lossy n = k → IsText n → toUtf8 k = n := by
      rintro rfl htext
      exact htext
    have hne : fromUtf8Lossy n ≠ k → toUtf8 k ≠ n := by
      rintro hne rfl
      exact hne he.decodes
    rw [List.foldl_cons, performAll_reparse he, ih (fun e' h => hl e' (List.mem_cons_of_mem _ h)) hkeys']
    by_cases htext : IsText n
    · rw [if_pos htext, if_pos htext]
      by_cases hkey : fromUtf8Lossy n = k
      · have hnone : l.lookup k = none := by
          rw [List.lookup_eq_none_iff]
          intro p hp
          simpa using fun h : k = p.1 => hnew (List.mem_map.mpr ⟨p, hp, h.symm⟩)
        rw [hkey, hnone, ← hk hkey htext, Function.update_self]
        simp
      · have hfalse : (fromUtf8Lossy n == k) = false := by simpa using hkey
        rw [List.lookup_cons, hfalse, Function.update_of_ne (Ne.symm (hne hkey))]
    · rw [if_neg htext, if_neg htext, Function.update_of_ne]
      rintro rfl
      exact htext (congrArg toUtf8 he.decodes)

/-- A shadow whose entries go over the wire, one for each name. -/
structure PgStmtShadow.Sound (s : PgStmtShadow) : Prop where
  /-- the entries -/
  wired : ∀ e ∈ s.stmts, Wired e
  /-- one for each name -/
  keys : (s.stmts.map Prod.fst).Nodup

namespace PgStmtShadow

variable {s : PgStmtShadow}

theorem Sound.remove (h : s.Sound) (name : Str) : (s.remove name).Sound :=
  ⟨fun e he => h.wired e (List.mem_of_mem_filter he), h.keys.sublist (List.filter_sublist.map _)⟩

theorem Sound.insert (h : s.Sound) {e : Str × Str} (he : Wired e) : (s.insert e.1 e.2).Sound := by
  have hrest := h.remove e.1
  refine ⟨fun e' he' => ?_, ?_⟩
  · rcases List.mem_cons.mp he' with rfl | he'
    · exact he
    · exact hrest.wired e' he'
  · refine List.nodup_cons.mpr ⟨fun hmem => ?_, hrest.keys⟩
    obtain ⟨e', he', heq⟩ := List.mem_map.mp hmem
    simpa [heq] using (List.mem_filter.mp he').2

theorem Sound.applyScan (h : s.Sound) {scan : PgPipelineScan}
    (hscan : ∀ e ∈ scan.parses, e.1 = [] ∨ Wired e) : (s.applyScan scan).Sound := by
  have hparses : (s.register scan.parses).Sound := by
    refine List.foldlRecOn _ _ h fun s hs e he => ?_
    rcases hscan e he with he | he
    · simpa [he] using hs
    · simpa [List.isEmpty_iff, he.named] using hs.insert he
  exact List.foldlRecOn _ _ hparses fun s hs name _ => hs.remove name

end PgStmtShadow

/-- A `Parse` as it lies in its payload. -/
theorem payload_of_parse {m : PgMsg} {name query types : Bytes}
    (h : m.act = some (.parse name query types)) :
    m.payload = name ++ 0 :: (query ++ 0 :: types) ∧ (0 : UInt8) ∉ name ∧ (0 : UInt8) ∉ query := by
  rw [PgMsg.act] at h
  split at h
  · obtain ⟨⟨name', rest⟩, hname, h⟩ := Option.bind_eq_some_iff.mp h
    obtain ⟨⟨query', types'⟩, hquery, heq⟩ := Option.map_eq_some_iff.mp h
    obtain ⟨rfl, rfl, rfl⟩ := PgAct.parse.inj heq
    obtain ⟨hpayload, hn⟩ := splitNul_eq_some hname
    obtain ⟨hrest, hq⟩ := splitNul_eq_some hquery
    exact ⟨hpayload.trans (by rw [← hrest]), hn, hq⟩
  · split at h
    · obtain ⟨p, -, heq⟩ := Option.map_eq_some_iff.mp h
      cases heq
    · cases h

/-- A named `Parse` of a plain message. -/
theorem wired_of_parse {m : PgMsg} {name query types : Bytes} (hplain : m.Plain)
    (h : m.act = some (.parse name query types)) (hne : fromUtf8Lossy name ≠ []) :
    Wired (fromUtf8Lossy name, fromUtf8Lossy query) := by
  obtain ⟨hpayload, hname, hquery⟩ := payload_of_parse h
  obtain ⟨htext, htext', htypes⟩ := hplain _ h
  have hsmall := m.small
  rw [hpayload] at hsmall
  simp only [List.length_append, List.length_cons] at hsmall
  refine ⟨hne, congrArg fromUtf8Lossy htext, ?_, ?_, ?_⟩
  · rwa [htext]
  · rwa [htext']
  · rw [htext, htext']
    omega

/-- What a plain pipeline registers goes over the wire as it came. -/
theorem wired_scan {msgs : List PgMsg} (hplain : ∀ m ∈ msgs, m.Plain) :
    ∀ e ∈ (scanPgPipeline (pipelineBytes msgs)).parses, e.1 = [] ∨ Wired e := by
  rw [scanPgPipeline_pipeline]
  refine List.foldlRecOn (motive := fun scan : PgPipelineScan => ∀ e ∈ scan.parses, e.1 = [] ∨ Wired e) _ _
    (fun e he => by cases he) fun scan hscan m hm => ?_
  rw [PgPipelineScan.note]
  rcases hact : m.act with _ | ⟨name, query, types⟩ | ⟨name⟩
  · exact hscan
  · intro e he
    rcases List.mem_append.mp he with he | he
    · exact hscan e he
    · obtain rfl := List.mem_singleton.mp he
      exact or_iff_not_imp_left.mpr (wired_of_parse (hplain m hm) hact)
  · dsimp only
    split
    · exact hscan
    · exact hscan

/-! ## The shadow after a history -/

/-- A name is forgotten: in the last pipeline that had to do with it, it was reopened. -/
def forgets (n : Str) (history : List (List PgMsg)) : Bool :=
  history.foldl (fun forgotten msgs => if touches n msgs = [] then forgotten else reopens n msgs) false

namespace PgStmtShadow

variable {s s' : PgStmtShadow} {n : Str} {msgs : List PgMsg}

/-- What a pipeline leaves under a name, in the shadow of the proxy. -/
theorem get_applyScan_pipeline : (s.applyScan (scanPgPipeline (pipelineBytes msgs))).get n =
    if reopens n msgs then none else (msgs.foldl follow s).get n := by
  rcases hre : reopens n msgs with _ | _
  · exact (get_applyScan_eq_follow s n msgs).mpr hre
  · have hin : false ∈ touches n msgs := by
      simp only [reopens, Bool.and_eq_true, List.contains_iff_mem] at hre
      exact hre.1
    rw [get_applyScan, if_pos ((scanned s n msgs).closes.mpr hin)]
    rfl

/-- A pipeline that does not touch a name leaves it as it was. -/
theorem get_follow_untouched (h : touches n msgs = []) :
    (msgs.foldl follow s).get n = s.get n := by
  induction msgs generalizing s with
  | nil => rfl
  | cons m msgs ih =>
    rw [touches, List.filterMap_cons] at h
    rcases htouch : m.touch n with _ | b
    · rw [htouch] at h
      rw [List.foldl_cons, ih h]
      exact (untouched s ⟨[], []⟩ htouch).1
    · rw [htouch] at h
      cases h

/-- A pipeline that touches a name leaves under it what it leaves in any other shadow. -/
theorem get_follow_touched (s s' : PgStmtShadow) (h : touches n msgs ≠ []) :
    (msgs.foldl follow s).get n = (msgs.foldl follow s').get n := by
  induction msgs generalizing s s' with
  | nil => exact absurd rfl h
  | cons m msgs ih =>
    rw [List.foldl_cons, List.foldl_cons]
    by_cases hrest : touches n msgs = []
    · rw [get_follow_untouched hrest, get_follow_untouched hrest]
      rcases htouch : m.touch n with _ | _ | _
      · rw [touches, List.filterMap_cons, htouch] at h
        exact absurd hrest h
      · rw [(touched_close s ⟨[], []⟩ htouch).1, (touched_close s' ⟨[], []⟩ htouch).1]
      · rw [(touched_open s ⟨[], []⟩ htouch).2.2.2 s,
          (touched_open s' ⟨[], []⟩ htouch).2.2.2 s]
    · exact ih _ _ hrest

end PgStmtShadow

/-- After a history, the shadow has what the messages leave behind one by one, but for the names that
are forgotten. -/
theorem get_shadowAfter (history : List (List PgMsg)) (n : Str) :
    (shadowAfter history).get n =
      if forgets n history then none else (history.flatten.foldl PgStmtShadow.follow .new).get n := by
  have hgo : ∀ (history : List (List PgMsg)) (s s' : PgStmtShadow) (forgotten : Bool),
      s.get n = (if forgotten then none else s'.get n) →
      (history.foldl (fun s msgs => s.applyScan (scanPgPipeline (pipelineBytes msgs))) s).get n =
        if history.foldl (fun forgotten msgs =>
          if touches n msgs = [] then forgotten else reopens n msgs) forgotten then none
        else (history.flatten.foldl PgStmtShadow.follow s').get n := by
    intro history
    induction history with
    | nil => exact fun s s' forgotten h => h
    | cons msgs history ih =>
      intro s s' forgotten h
      rw [List.foldl_cons, List.foldl_cons, List.flatten_cons, List.foldl_append]
      refine ih _ _ _ ?_
      rw [PgStmtShadow.get_applyScan_pipeline]
      by_cases htouch : touches n msgs = []
      · have hre : reopens n msgs = false := by simp [reopens, htouch]
        rw [hre, if_pos htouch, PgStmtShadow.get_follow_untouched htouch,
          PgStmtShadow.get_follow_untouched htouch]
        exact h
      · rw [if_neg htouch, PgStmtShadow.get_follow_touched s s' htouch]
  exact hgo history .new .new false rfl

theorem sound_shadowAfter {history : List (List PgMsg)}
    (hplain : ∀ msgs ∈ history, ∀ m ∈ msgs, m.Plain) : (shadowAfter history).Sound :=
  List.foldlRecOn _ _ ⟨by simp [PgStmtShadow.new], by simp [PgStmtShadow.new]⟩
    fun _ hs msgs hmsgs => hs.applyScan (wired_scan (hplain msgs hmsgs))

/-! ## The shadow and the client's statements -/

/-- The shadow knows a statement of the client by its decoded name and query. -/
def Knows (s : PgStmtShadow) (B : PgStatements) (n : Bytes) : Prop :=
  s.get (fromUtf8Lossy n) = (B n).map fun st => fromUtf8Lossy st.1

/-- A plain message does the same to both. -/
theorem Knows.step {s : PgStmtShadow} {B : PgStatements} {n : Bytes} (h : Knows s B n) {m : PgMsg}
    (hplain : m.Plain) (htext : IsText n) (hne : n ≠ []) : Knows (s.follow m) (B.perform m) n := by
  -- names decode to different texts
  have hname : ∀ name, IsText name → name ≠ n → fromUtf8Lossy n ≠ fromUtf8Lossy name := by
    intro name hname hdiff heq
    refine hdiff ?_
    calc name = toUtf8 (fromUtf8Lossy name) := hname.symm
      _ = toUtf8 (fromUtf8Lossy n) := by rw [heq]
      _ = n := htext
  have hkey : fromUtf8Lossy n ≠ [] := by
    intro hnil
    refine hne ?_
    calc n = toUtf8 (fromUtf8Lossy n) := htext.symm
      _ = toUtf8 [] := by rw [hnil]
      _ = [] := rfl
  unfold Knows at h ⊢
  unfold PgStmtShadow.follow PgStatements.perform
  rcases hact : m.act with _ | ⟨name, query, types⟩ | ⟨name⟩ <;> dsimp only
  · exact h
  · by_cases hn : name = n
    · subst hn
      rw [if_neg hkey, PgStmtShadow.get_insert, if_pos rfl, Function.update_self]
      rfl
    · rw [Function.update_of_ne (Ne.symm hn)]
      split
      · exact h
      · rw [PgStmtShadow.get_insert, if_neg (hname name (hplain _ hact).1 hn)]
        exact h
  · by_cases hn : name = n
    · subst hn
      rw [if_neg hkey, PgStmtShadow.get_remove, if_pos rfl, Function.update_self]
      rfl
    · rw [Function.update_of_ne (Ne.symm hn)]
      split
      · exact h
      · rw [PgStmtShadow.get_remove, if_neg (hname name (hplain _ hact) hn)]
        exact h

/-- A statement whose name and query are texts. -/
def TextStatements (B : PgStatements) : Prop := ∀ n st, B n = some st → IsText n ∧ IsText st.1

theorem TextStatements.step {B : PgStatements} (h : TextStatements B) {m : PgMsg}
    (hplain : m.Plain) : TextStatements (B.perform m) := by
  intro n st hst
  rw [PgStatements.perform] at hst
  rcases hact : m.act with _ | ⟨name, query, types⟩ | ⟨name⟩ <;> rw [hact] at hst <;>
    dsimp only at hst
  · exact h n st hst
  · by_cases hn : n = name
    · subst hn
      rw [Function.update_self] at hst
      obtain rfl := Option.some.inj hst
      exact ⟨(hplain _ hact).1, (hplain _ hact).2.1⟩
    · rw [Function.update_of_ne hn] at hst
      exact h n st hst
  · by_cases hn : n = name
    · subst hn
      rw [Function.update_self] at hst
      cases hst
    · rw [Function.update_of_ne hn] at hst
      exact h n st hst

section History

variable {history : List (List PgMsg)} (hplain : ∀ msgs ∈ history, ∀ m ∈ msgs, m.Plain)

include hplain

theorem plain_flatten : ∀ m ∈ history.flatten, m.Plain := by
  intro m hm
  obtain ⟨msgs, hmsgs, hmem⟩ := List.mem_flatten.mp hm
  exact hplain msgs hmsgs m hmem

theorem knows_history {n : Bytes} (htext : IsText n) (hne : n ≠ []) :
    Knows (history.flatten.foldl PgStmtShadow.follow .new) (clientStatements history) n :=
  List.foldl_rel (r := fun s B => Knows s B n) rfl
    fun m hm _ _ h => h.step (plain_flatten hplain m hm) htext hne

theorem text_clientStatements : TextStatements (clientStatements history) :=
  List.foldlRecOn _ _ (fun _ _ h => by cases h) fun _ h m hm => h.step (plain_flatten hplain m hm)

/-- The names the next pipeline parses are not prepared beforehand. -/
def skipped (next : List PgMsg) : List Str :=
  ((scanPgPipeline (pipelineBytes next)).parses.map (·.1)).filter fun name => !name.isEmpty

/-- What is prepared before the next pipeline is sent again. -/
def prepared (history : List (List PgMsg)) (next : List PgMsg) : PgStatements :=
  (((shadowAfter history).applyScan (scanPgPipeline (pipelineBytes next))).buildReprepareFor
    (skipped next)).foldl PgStatements.performAll fun _ => none

omit hplain in
/-- Looking a name up among the entries that are not skipped. -/
theorem lookup_unskipped (l : List (Str × Str)) (skip : List Str) (k : Str) :
    (l.filter fun e => !skip.contains e.1).lookup k = if k ∈ skip then none else l.lookup k := by
  induction l with
  | nil => simp
  | cons e l ih =>
    obtain ⟨k', q⟩ := e
    by_cases hk : k = k'
    · subst hk
      by_cases hskip : k ∈ skip
      · simpa [List.filter_cons, hskip] using ih
      · simp [hskip]
    · have hfalse : (k == k') = false := by simpa using hk
      by_cases hskip : k' ∈ skip
      · simpa [List.filter_cons, hskip, List.lookup_cons, hfalse] using ih
      · simpa [List.filter_cons, hskip, List.lookup_cons, hfalse] using ih

/-- **What is prepared again**: the client's statements, without their parameter types, but for those
the next pipeline touches and those the shadow has forgotten. -/
theorem prepared_eq {next : List PgMsg} (hnext : ∀ m ∈ next, m.Plain) {n : Bytes} (hne : n ≠ []) :
    prepared history next n =
      if touches (fromUtf8Lossy n) next = [] ∧ forgets (fromUtf8Lossy n) history = false then
        (clientStatements history n).map fun st => (st.1, [])
      else none := by
  have hsound : ((shadowAfter history).applyScan (scanPgPipeline (pipelineBytes next))).Sound :=
    (sound_shadowAfter hplain).applyScan (wired_scan hnext)
  have hl : ∀ e ∈ ((shadowAfter history).applyScan (scanPgPipeline (pipelineBytes next))).stmts.filter
      (fun e => !(skipped next).contains e.1), Wired e := fun e he =>
    hsound.wired e (List.mem_of_mem_filter he)
  rw [prepared, PgStmtShadow.buildReprepareFor, List.foldl_map,
    foldl_reparse _ hl (hsound.keys.sublist (List.filter_sublist.map _))]
  by_cases htext : IsText n
  · have hkey : fromUtf8Lossy n ≠ [] := by
      intro hnil
      refine hne ?_
      calc n = toUtf8 (fromUtf8Lossy n) := htext.symm
        _ = toUtf8 [] := by rw [hnil]
        _ = [] := rfl
    obtain ⟨hcloses, hparses, -⟩ := scanned (shadowAfter history) (fromUtf8Lossy n) next
    have hskip : fromUtf8Lossy n ∈ skipped next ↔ true ∈ touches (fromUtf8Lossy n) next := by
      simpa [skipped, hkey] using hparses hkey
    rw [if_pos htext, Option.or_none, lookup_unskipped]
    change Option.map _ (if _ then none else PgStmtShadow.get _ _) = _
    by_cases htouch : touches (fromUtf8Lossy n) next = []
    · have hre : reopens (fromUtf8Lossy n) next = false := by simp [reopens, htouch]
      rw [if_neg (by simp [hskip, htouch]), PgStmtShadow.get_applyScan_pipeline, hre,
        if_neg Bool.false_ne_true, PgStmtShadow.get_follow_untouched htouch, get_shadowAfter]
      rcases hforget : forgets (fromUtf8Lossy n) history with _ | _
      · rw [if_neg Bool.false_ne_true, if_pos ⟨htouch, rfl⟩, knows_history hplain htext hne,
          Option.map_map]
        refine Option.map_congr fun st hst => ?_
        exact congrArg (·, []) (text_clientStatements hplain n st hst).2
      · simp
    · refine Eq.trans ?_ (if_neg fun h => htouch h.1).symm
      by_cases hin : true ∈ touches (fromUtf8Lossy n) next
      · rw [if_pos (hskip.mpr hin)]
        rfl
      · -- it is closed only
        have hclosed : false ∈ touches (fromUtf8Lossy n) next := by
          obtain ⟨b, hb⟩ := List.exists_mem_of_ne_nil _ htouch
          cases b
          · exact hb
          · exact absurd hb hin
        rw [if_neg (mt hskip.mp hin), PgStmtShadow.get_applyScan, if_pos (hcloses.mpr hclosed)]
        rfl
  · have hnone : clientStatements history n = none := by
      rcases h : clientStatements history n with _ | st
      · rfl
      · exact absurd (text_clientStatements hplain n st h).1 htext
    rw [if_neg htext, hnone]
    simp

/-- The unnamed statement is not prepared again. -/
theorem prepared_nil {next : List PgMsg} (hnext : ∀ m ∈ next, m.Plain) :
    prepared history next [] = none := by
  have hsound : ((shadowAfter history).applyScan (scanPgPipeline (pipelineBytes next))).Sound :=
    (sound_shadowAfter hplain).applyScan (wired_scan hnext)
  have hl : ∀ e ∈ ((shadowAfter history).applyScan (scanPgPipeline (pipelineBytes next))).stmts.filter
      (fun e => !(skipped next).contains e.1), Wired e := fun e he =>
    hsound.wired e (List.mem_of_mem_filter he)
  rw [prepared, PgStmtShadow.buildReprepareFor, List.foldl_map,
    foldl_reparse _ hl (hsound.keys.sublist (List.filter_sublist.map _)), if_pos (by decide), Option.or_none,
    Option.map_eq_none_iff, List.lookup_eq_none_iff]
  intro e he
  have hnil : fromUtf8Lossy [] = [] := rfl
  simpa [hnil] using Ne.symm (hl e he).named

end History

/-! ## The replay -/

section Replay

variable {world : (o : Op) → Res o} {e : Str}

/-- The re-prepare messages are performed one after the other. -/
theorem run_reprepareAll (c : ConnId) (jobs : List Bytes) (r : Replay) :
    (reprepareAll c jobs).runWith (Replay.handle world e) r =
      ({ r with statements := jobs.foldl PgStatements.performAll r.statements }, ()) := by
  induction jobs generalizing r with
  | nil => rfl
  | cons job jobs ih =>
    unfold reprepareAll sendRaw
    simp only [Prog.runWith_bind, Prog.runWith_perform, Prog.pure_eq, Prog.runWith_done]
    exact ih _

variable (world e) in
/-- A checkout changes nothing on the fresh connection. -/
theorem run_getPrimary (pool : PoolRef) (db : Option Str) (r : Replay) :
    ∃ got, (pool.getPrimaryForDatabase db).runWith (Replay.handle world e) r = (r, got) := by
  have hget : ∀ slot, ∃ got, (act (.get (pool.origin slot) db)).runWith (Replay.handle world e) r =
      (r, got) := fun slot => ⟨_, rfl⟩
  rw [PoolRef.getPrimaryForDatabase]
  simp only [Prog.runWith_bind, Prog.runWith_perform, Replay.handle]
  split
  · exact hget _
  · simp only [Prog.runWith_bind, Prog.runWith_perform, Replay.handle]
    split
    · exact hget _
    · simp only [Prog.runWith_bind, Prog.runWith_perform, Replay.handle]
      change ∃ got, Prog.runWith _ (if (world (.primaryAllows pool.gen) : Bool) = true then _ else _) r = _
      split
      · exact hget _
      · exact ⟨_, rfl⟩

variable (world) in
/-- If the pipeline is sent again, it finds what was prepared again. -/
theorem statementsFound_eq (he : isConnectionLost e = true) (history : List (List PgMsg))
    (next : List PgMsg) (c : ConnId) (txConn : Option ConnId) (db : Option Str) :
    statementsFound world e history next c txConn db = none ∨
      statementsFound world e history next c txConn db = some (prepared history next) := by
  obtain ⟨got, hgot⟩ := run_getPrimary world e (world .readPool) db
    ⟨true, fun _ => none, none⟩
  unfold statementsFound routeStmtPgShadowInner PoolRef.ensure sendRaw
  simp only [Prog.runWith_bind, Prog.runWith_perform, Replay.handle, Bool.false_eq_true, if_false,
    Prog.pure_eq, Prog.runWith_done, Except.mapError, TalkError.text, he, if_true, hgot]
  rcases got with e' | fresh
  · exact .inl rfl
  · refine .inr ?_
    simp only [Prog.runWith_bind, run_reprepareAll, Prog.runWith_perform, Replay.handle, if_true,
      Prog.runWith_done]
    rfl

/-- With a healthy primary it is sent again. -/
theorem statementsFound_steady (he : isConnectionLost e = true) (history : List (List PgMsg))
    (next : List PgMsg) (c : ConnId) (txConn : Option ConnId) (db : Option Str) :
    statementsFound (steady 0 0) e history next c txConn db = some (prepared history next) := by
  have hgot : ((⟨0, []⟩ : PoolRef).getPrimaryForDatabase db).runWith (Replay.handle (steady 0 0) e)
      ⟨true, fun _ => none, none⟩ = (⟨true, fun _ => none, none⟩, .ok 0) := rfl
  unfold statementsFound routeStmtPgShadowInner PoolRef.ensure sendRaw
  simp only [Prog.runWith_bind, Prog.runWith_perform, Replay.handle, Bool.false_eq_true, if_false,
    Prog.pure_eq, Prog.runWith_done, Except.mapError, TalkError.text, he, if_true, steady, atEase, hgot,
    run_reprepareAll]
  rfl

end Replay

/-! ## What the client's statements become -/

/-- The next pipeline finds every statement of the client that it needs from before, and everything
prepared again is as the client prepared it. -/
def Restores (B found : PgStatements) (next : List PgMsg) : Prop :=
  (∀ n, n ≠ [] → usesFirst n next = true → (B n).isSome = true → (found n).isSome = true) ∧
    ∀ n st, found n = some st → B n = some st

/-- **The statements are restored** whatever the fresh connection, exactly when

* the statements that the next pipeline needs from before are neither touched by that pipeline nor
  forgotten, and
* the statements that it does not touch and that are not forgotten have no parameter types. -/
theorem statements_restored {history : List (List PgMsg)} {next : List PgMsg}
    (hplain : ∀ msgs ∈ next :: history, ∀ m ∈ msgs, m.Plain) {e : Str}
    (he : isConnectionLost e = true) (c : ConnId) (txConn : Option ConnId) (db : Option Str) :
    (∀ world found, statementsFound world e history next c txConn db = some found →
        Restores (clientStatements history) found next) ↔
      (∀ n, n ≠ [] → usesFirst n next = true → (clientStatements history n).isSome = true →
        touches (fromUtf8Lossy n) next = [] ∧ forgets (fromUtf8Lossy n) history = false) ∧
      ∀ n query oids, n ≠ [] → clientStatements history n = some (query, oids) →
        touches (fromUtf8Lossy n) next = [] → forgets (fromUtf8Lossy n) history = false →
        oids = [] := by
  have hhistory : ∀ msgs ∈ history, ∀ m ∈ msgs, m.Plain := fun msgs h =>
    hplain msgs (List.mem_cons_of_mem _ h)
  have hprepared := fun n hne => prepared_eq hhistory (hplain next List.mem_cons_self) (n := n) hne
  constructor
  · intro h
    obtain ⟨huses, hsame⟩ := h (steady 0 0) _ (statementsFound_steady he history next c txConn db)
    refine ⟨fun n hne hn hB => ?_, fun n query oids hne hB htouch hforget => ?_⟩
    · have hsome := huses n hne hn hB
      rw [hprepared n hne] at hsome
      by_contra hnot
      rw [if_neg hnot] at hsome
      cases hsome
    · have hfound := hprepared n hne
      rw [if_pos ⟨htouch, hforget⟩, hB] at hfound
      have heq := hsame n _ hfound
      rw [hB] at heq
      exact (Prod.mk.inj (Option.some.inj heq)).2
  · rintro ⟨huses, hoids⟩ world found hfound
    obtain hnone | hsome := statementsFound_eq world he history next c txConn db
    · rw [hnone] at hfound
      cases hfound
    · obtain rfl := Option.some.inj (hsome.symm.trans hfound)
      refine ⟨fun n hne hn hB => ?_, fun n st hst => ?_⟩
      · rw [hprepared n hne, if_pos (huses n hne hn hB), Option.isSome_map]
        exact hB
      · by_cases hne : n = []
        · rw [hne, prepared_nil hhistory (hplain next List.mem_cons_self)] at hst
          cases hst
        · rw [hprepared n hne] at hst
          obtain ⟨⟨htouch, hforget⟩, hst⟩ := Option.ite_none_right_eq_some.mp hst
          obtain ⟨⟨query, oids⟩, hB, rfl⟩ := Option.map_eq_some_iff.mp hst
          rw [hoids n query oids hne hB htouch hforget] at hB
          exact hB

/-- A pipeline that prepares `s`. -/
def prepareS : List PgMsg := [asciiMsg 0x50 "s\x00SELECT 1\x00\x00\x00" (by decide), asciiMsg 0x53 "" (by decide)]

/-- `Bind s`, `Execute`. -/
def executeS : List PgMsg :=
  [asciiMsg 0x42 "\x00s\x00\x00\x00\x00\x00\x00\x00" (by decide), asciiMsg 0x45 "\x00\x00\x00\x00\x00" (by decide)]

theorem prepareS_act : prepareS.map PgMsg.act =
    [some (.parse (asciiBytes "s") (asciiBytes "SELECT 1") [0, 0]), none] := by decide

/-- `s` is prepared without parameter types, and then bound and executed: it is there when its connection
is lost. -/
theorem statements_restored_executeS :
    Restores (clientStatements [prepareS]) (prepared [prepareS] executeS) executeS := by
  obtain ⟨hparse, hsync⟩ : _ = _ ∧ _ = _ := by simpa [prepareS] using prepareS_act
  have hlost : isConnectionLost "connection reset".toList = true := by decide
  have hplain : ∀ msgs ∈ executeS :: [prepareS], ∀ m ∈ msgs, m.Plain := by decide
  refine (statements_restored hplain hlost 0 none none).mpr ⟨fun n _ _ _ => ⟨rfl, ?_⟩, ?_⟩ (steady 0 0) _
    (statementsFound_steady hlost [prepareS] executeS 0 none none)
  · simp only [forgets, reopens, touches, prepareS, PgMsg.touch, hparse, hsync, List.filterMap_cons,
      List.filterMap_nil, List.foldl_cons, List.foldl_nil]
    split <;> simp
  · intro n query oids _ hB _ _
    simp only [clientStatements, prepareS, List.flatten_cons, List.flatten_nil, List.append_nil,
      List.foldl_cons, List.foldl_nil, PgStatements.perform, hparse, hsync] at hB
    by_cases hn : n = asciiBytes "s"
    · rw [hn, Function.update_self] at hB
      exact (Prod.mk.inj (Option.some.inj hB)).2.symm
    · rw [Function.update_of_ne hn] at hB
      cases hB

/-- `s` is bound and closed in one pipeline: it is not there to be bound. -/
theorem bound_then_closed_missing :
    let next := executeS ++ [asciiMsg 0x43 "Ss\x00" (by decide)]
    usesFirst (asciiBytes "s") next = true ∧
      clientStatements [prepareS] (asciiBytes "s") = some (asciiBytes "SELECT 1", []) ∧
      (statementsFound (steady 0 0) "connection reset".toList [prepareS] next 0 none none).map
        (fun found => found (asciiBytes "s")) = some none := by
  decide +kernel

end TurbineProxy
