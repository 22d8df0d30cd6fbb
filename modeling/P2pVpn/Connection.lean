import P2pVpn.Lib.Channel
import P2pVpn.Lib.Flow

set_option autoImplicit false

/-! # The incoming router (`src/connection.rs`, its set-up in `src/main.rs`)

One listener accepts connections from anybody. The router passes each one on to the link of the
configured peer whose key the remote has, through a channel of that link's own, and closes those of
anybody else. It handles one connection at a time: while it waits for room in one link's channel, the
next connection waits too. The link at the other end takes connections when it likes, and may end.

Links are numbered in the order `main` goes through the peers; nothing keeps two peers of the
configuration from having one key. -/

namespace P2pVpn

/-- A connection, with the key that its remote end has proved to have. -/
structure IncomingConnection (Key : Type) where
  conn : Nat
  remoteId : Key
  deriving DecidableEq

/-- A hash map from keys to the links whose channels' senders it holds. -/
structure IncomingRouter (Key : Type) where
  byPeer : List (Key × Nat)

/-- Where `IncomingRouter::run` is. -/
inductive RouterPhase (Key : Type) where
  /-- In `incoming.recv()`. -/
  | receiving
  /-- In `sender.send(conn)`. -/
  | sending (conn : IncomingConnection Key) (link : Nat)
  | ended

/-- The router, and the channels between it and the links. -/
structure Listener (Key : Type) where
  router : IncomingRouter Key
  phase : RouterPhase Key
  links : Nat → Channel (IncomingConnection Key)

/-- A connection and what it was closed with. -/
structure ClosedConnection (Key : Type) where
  conn : IncomingConnection Key
  code : Nat
  reason : String
  deriving DecidableEq

/-- What happens at the listener. -/
inductive ListenerAction (Key : Type) where
  /-- The listener hands over a connection. -/
  | accept (conn : IncomingConnection Key)
  /-- The listener is gone. -/
  | listenerEnds
  /-- `sender.send` returns. -/
  | sent
  /-- A link takes a connection. -/
  | take (link : Nat)
  /-- A link ends. -/
  | dropLink (link : Nat)
  deriving DecidableEq

section

variable {Key : Type} [DecidableEq Key]

/-- A router with no peer registered. -/
def IncomingRouter.new : IncomingRouter Key := ⟨[]⟩

/-- The link registered for the key. -/
def IncomingRouter.get (router : IncomingRouter Key) (key : Key) : Option Nat :=
  (router.byPeer.find? fun entry => entry.1 = key).map Prod.snd

/-- Registers a link; a key that is registered twice keeps the last one. -/
def IncomingRouter.register (router : IncomingRouter Key) (key : Key) (link : Nat) :
    IncomingRouter Key :=
  ⟨(key, link) :: router.byPeer.filter fun entry => entry.1 ≠ key⟩

/-- The capacity of a link's channel. -/
def INCOMING_CAPACITY : Nat := 4

/-- Nothing has come in yet, and no link is registered. -/
def Listener.new : Listener Key := ⟨.new, .receiving, fun _ => .new INCOMING_CAPACITY⟩

/-- A sender of a link's channel is dropped. -/
def Listener.dropSender (l : Listener Key) (link : Nat) : Listener Key :=
  { l with links := Function.update l.links link (l.links link).dropSender }

/-- `main` sets up one link; a sender the map already had for the key is dropped. -/
def Listener.register (l : Listener Key) (key : Key) (link : Nat) : Listener Key :=
  let l' := match l.router.get key with
    | some old => l.dropSender old
    | none => l
  { l' with router := l.router.register key link }

/-- The router as `main` starts it, for peers with these keys. -/
def Listener.start (keys : List Key) : Listener Key :=
  keys.zipIdx.foldl (fun l entry => l.register entry.1 entry.2) .new

/-- One step of `run`, or of a link. -/
def Listener.step (l : Listener Key) : ListenerAction Key → Option (Listener Key)
  | .accept conn =>
      match l.phase with
      | .receiving =>
          match l.router.get conn.remoteId with
          | some link => some { l with phase := .sending conn link }
          | none => some l
      | _ => none
  | .listenerEnds =>
      match l.phase with
      | .receiving =>
          some { l.router.byPeer.foldl (fun l entry => l.dropSender entry.2) l with phase := .ended }
      | _ => none
  | .sent =>
      match l.phase with
      | .sending conn link =>
          match (l.links link).trySend conn with
          | .ok channel =>
              some { l with phase := .receiving, links := Function.update l.links link channel }
          -- counted, and the connection is dropped
          | .error .closed => some { l with phase := .receiving }
          | .error .full => none
      | _ => none
  | .take link =>
      (l.links link).recv.map fun r => { l with links := Function.update l.links link r.2 }
  | .dropLink link =>
      some { l with links := Function.update l.links link (l.links link).dropReceiver }

/-! ## What can be seen of a run -/

/-- A connection that comes in. -/
def Listener.accepted (_ : Listener Key) : ListenerAction Key → Option (IncomingConnection Key)
  | .accept conn => some conn
  | _ => none

/-- What `dispatch` closes. -/
def Listener.rejected (l : Listener Key) : ListenerAction Key → Option (ClosedConnection Key)
  | .accept conn =>
      match l.router.get conn.remoteId with
      | some _ => none
      | none => some ⟨conn, 0, "unknown peer"⟩
  | _ => none

/-- What a link takes. -/
def Listener.taken (j : Nat) (l : Listener Key) :
    ListenerAction Key → Option (IncomingConnection Key)
  | .take link => if link = j then (l.links j).recv.map Prod.fst else none
  | _ => none

/-- What is on its way to a link. -/
def Listener.underway (j : Nat) (l : Listener Key) : List (IncomingConnection Key) :=
  (l.links j).queue ++
    match l.phase with
    | .sending conn link => if link = j then [conn] else []
    | _ => []

/-! ## The map -/

omit [DecidableEq Key] in
/-- Link `j` is the last one with its key. -/
def IsLastWith (keys : List Key) (key : Key) (j : Nat) : Prop :=
  keys[j]? = some key ∧ ∀ i, j < i → keys[i]? ≠ some key

theorem IncomingRouter.get_register (router : IncomingRouter Key) (key x : Key) (link : Nat) :
    (router.register key link).get x = if x = key then some link else router.get x := by
  unfold register get
  by_cases hx : x = key
  · simp [hx]
  · have hkey : ¬ key = x := fun h => hx h.symm
    have hsame : (fun entry : Key × Nat => !decide (entry.1 = key) && decide (entry.1 = x))
        = fun entry => decide (entry.1 = x) := by
      funext entry
      by_cases he : entry.1 = x
      · simp [he, hx]
      · simp [he]
    simp [hx, hkey, List.find?_filter, hsame]

omit [DecidableEq Key] in
theorem isLastWith_append (keys : List Key) (last key : Key) (j : Nat) :
    IsLastWith (keys ++ [last]) key j ↔
      (key = last ∧ j = keys.length) ∨ (key ≠ last ∧ IsLastWith keys key j) := by
  unfold IsLastWith
  constructor
  · rintro ⟨hj, hlater⟩
    by_cases hkey : key = last
    · refine Or.inl ⟨hkey, ?_⟩
      by_contra hne
      have hlt : j < keys.length := by
        have hbound := (List.getElem?_eq_some_iff.1 hj).1
        rw [List.length_append, List.length_singleton] at hbound
        omega
      exact hlater keys.length hlt (by simp [hkey])
    · refine Or.inr ⟨hkey, ?_, ?_⟩
      · rw [List.getElem?_append] at hj
        split_ifs at hj with hlt
        · exact hj
        · exact absurd (List.mem_singleton.1 (List.mem_of_getElem? hj)) hkey
      · intro i hi hmem
        exact hlater i hi (List.getElem?_append_left (List.getElem?_eq_some_iff.1 hmem).1 ▸ hmem)
  · rintro (⟨rfl, rfl⟩ | ⟨hkey, hj, hlater⟩)
    · refine ⟨by simp, ?_⟩
      intro i hi
      rw [List.getElem?_eq_none (by simpa using hi)]
      simp
    · have hlt := (List.getElem?_eq_some_iff.1 hj).1
      refine ⟨by rw [List.getElem?_append_left hlt, hj], ?_⟩
      intro i hi
      rw [List.getElem?_append]
      split_ifs with hi'
      · exact hlater i hi
      · intro hmem
        exact hkey (List.mem_singleton.1 (List.mem_of_getElem? hmem))

theorem Listener.start_append (keys : List Key) (key : Key) :
    start (keys ++ [key]) = (start keys).register key keys.length := by
  simp [start, List.zipIdx_append]

theorem Listener.router_register (l : Listener Key) (key : Key) (link : Nat) :
    (l.register key link).router = l.router.register key link := rfl

/-- The map has the last link of each key. -/
theorem Listener.get_start (keys : List Key) (key : Key) (j : Nat) :
    (start keys).router.get key = some j ↔ IsLastWith keys key j := by
  induction keys using List.reverseRecOn with
  | nil => simp [start, new, IncomingRouter.new, IncomingRouter.get, IsLastWith]
  | append_singleton keys last ih =>
      rw [start_append, router_register, IncomingRouter.get_register, isLastWith_append, ← ih]
      by_cases hkey : key = last
      · simp [hkey, eq_comm]
      · simp [hkey]

theorem Listener.get_start_eq_none (keys : List Key) (key : Key) :
    (start keys).router.get key = none ↔ key ∉ keys := by
  induction keys using List.reverseRecOn with
  | nil => simp [start, new, IncomingRouter.new, IncomingRouter.get]
  | append_singleton keys last ih =>
      rw [start_append, router_register, IncomingRouter.get_register]
      by_cases hkey : key = last
      · simp [hkey]
      · simp [hkey, ih]

/-! ## Steps -/

omit [DecidableEq Key] in
/-- What is in a link's channel, besides its count of senders. -/
def Listener.contents (l : Listener Key) (j : Nat) : List (IncomingConnection Key) × Bool × Nat :=
  ((l.links j).queue, (l.links j).closed, (l.links j).maxCapacity)

omit [DecidableEq Key] in
theorem Listener.contents_dropSender (l : Listener Key) (link j : Nat) :
    (l.dropSender link).contents j = l.contents j := by
  unfold contents dropSender
  by_cases hj : j = link
  · subst hj
    simp [Channel.dropSender]
  · simp [hj]

omit [DecidableEq Key] in
/-- Dropping senders changes nothing else. -/
theorem Listener.foldl_dropSender (entries : List (Key × Nat)) (l : Listener Key) :
    (∀ j, (entries.foldl (fun l entry => l.dropSender entry.2) l).contents j = l.contents j) ∧
      (entries.foldl (fun l entry => l.dropSender entry.2) l).router = l.router := by
  induction entries generalizing l with
  | nil => exact ⟨fun _ => rfl, rfl⟩
  | cons entry rest ih =>
      obtain ⟨hcontents, hrouter⟩ := ih (l.dropSender entry.2)
      exact ⟨fun j => (hcontents j).trans (l.contents_dropSender entry.2 j), hrouter⟩

theorem Listener.contents_register (l : Listener Key) (key : Key) (link j : Nat) :
    (l.register key link).contents j = l.contents j ∧ (l.register key link).phase = l.phase := by
  unfold register
  cases l.router.get key with
  | none => exact ⟨rfl, rfl⟩
  | some old => exact ⟨l.contents_dropSender old j, rfl⟩

theorem Listener.contents_start (keys : List Key) :
    (∀ j, (start keys).contents j = ([], false, INCOMING_CAPACITY)) ∧
      (start keys).phase = .receiving := by
  induction keys using List.reverseRecOn with
  | nil => exact ⟨fun _ => rfl, rfl⟩
  | append_singleton keys last ih =>
      rw [start_append]
      refine ⟨?_, ((start keys).contents_register last keys.length 0).2.trans ih.2⟩
      intro j
      exact ((start keys).contents_register last keys.length j).1.trans (ih.1 j)

/-- Transitions of the router and the links. -/
inductive ListenerStep (l : Listener Key) : ListenerAction Key → Listener Key → Prop where
  | route {conn : IncomingConnection Key} {link : Nat} (hphase : l.phase = .receiving)
      (hget : l.router.get conn.remoteId = some link) :
      ListenerStep l (.accept conn) { l with phase := .sending conn link }
  | reject {conn : IncomingConnection Key} (hphase : l.phase = .receiving)
      (hget : l.router.get conn.remoteId = none) : ListenerStep l (.accept conn) l
  | listenerEnds {l' : Listener Key} (hphase : l.phase = .receiving)
      (hcontents : ∀ j, l'.contents j = l.contents j) (hrouter : l'.router = l.router)
      (hended : l'.phase = .ended) : ListenerStep l .listenerEnds l'
  | queued {conn : IncomingConnection Key} {link : Nat}
      {channel : Channel (IncomingConnection Key)} (hphase : l.phase = .sending conn link)
      (hsend : (l.links link).trySend conn = .ok channel) :
      ListenerStep l .sent
        { l with phase := .receiving, links := Function.update l.links link channel }
  | lost {conn : IncomingConnection Key} {link : Nat} (hphase : l.phase = .sending conn link)
      (hsend : (l.links link).trySend conn = .error .closed) :
      ListenerStep l .sent { l with phase := .receiving }
  | take {conn : IncomingConnection Key} {link : Nat} {channel : Channel (IncomingConnection Key)}
      (hrecv : (l.links link).recv = some (conn, channel)) :
      ListenerStep l (.take link) { l with links := Function.update l.links link channel }
  | dropLink {link : Nat} :
      ListenerStep l (.dropLink link)
        { l with links := Function.update l.links link (l.links link).dropReceiver }

theorem Listener.step_sound {l l' : Listener Key} {a : ListenerAction Key}
    (h : l.step a = some l') : ListenerStep l a l' := by
  unfold step at h
  split at h
  · next conn =>
      split at h
      · next hphase =>
          split at h
          · next link hget =>
              obtain rfl := Option.some.inj h
              exact .route hphase hget
          · next hget =>
              obtain rfl := Option.some.inj h
              exact .reject hphase hget
      · exact absurd h (by simp)
  · split at h
    · next hphase =>
        obtain rfl := Option.some.inj h
        obtain ⟨hcontents, hrouter⟩ := foldl_dropSender l.router.byPeer l
        exact .listenerEnds hphase hcontents hrouter rfl
    · exact absurd h (by simp)
  · split at h
    · next conn link hphase =>
        split at h
        · next channel hsend =>
            obtain rfl := Option.some.inj h
            exact .queued hphase hsend
        · next hsend =>
            obtain rfl := Option.some.inj h
            exact .lost hphase hsend
        · exact absurd h (by simp)
    · exact absurd h (by simp)
  · obtain ⟨⟨conn, channel⟩, hrecv, rfl⟩ := Option.map_eq_some_iff.1 h
    exact .take hrecv
  · obtain rfl := Option.some.inj h
    exact .dropLink

/-! ## Invariants -/

/-- What holds of the router that `main` started for these keys. -/
structure Listener.Running (keys : List Key) (l : Listener Key) : Prop where
  get_eq : ∀ key, l.router.get key = (start keys).router.get key
  pending : ∀ conn link, l.phase = .sending conn link →
    (start keys).router.get conn.remoteId = some link
  capacity : ∀ j, (l.links j).maxCapacity = INCOMING_CAPACITY

theorem Listener.Running.start (keys : List Key) : (start keys).Running keys where
  get_eq := fun _ => rfl
  pending := by
    intro conn link hphase
    exact absurd (hphase.symm.trans (contents_start keys).2) (by simp)
  capacity := fun j => congrArg (fun c => c.2.2) ((contents_start keys).1 j)

omit [DecidableEq Key] in
/-- A link's channel after the channel of one link was replaced. -/
theorem Listener.links_update {l : Listener Key} {link j : Nat}
    {channel : Channel (IncomingConnection Key)} {P : Channel (IncomingConnection Key) → Prop}
    (hother : j ≠ link → P (l.links j)) (hself : j = link → P channel) :
    P (Function.update l.links link channel j) := by
  by_cases hj : j = link
  · subst hj
    simpa using hself rfl
  · simpa [hj] using hother hj

theorem ListenerStep.running {keys : List Key} {l l' : Listener Key} {a : ListenerAction Key}
    (h : ListenerStep l a l') (hrun : l.Running keys) : l'.Running keys := by
  obtain ⟨hget, hpending, hcapacity⟩ := hrun
  cases h with
  | @route conn link hphase hlink =>
      refine ⟨hget, ?_, hcapacity⟩
      intro conn' link' heq
      obtain ⟨rfl, rfl⟩ := RouterPhase.sending.inj heq
      exact (hget conn.remoteId).symm.trans hlink
  | reject _ _ => exact ⟨hget, hpending, hcapacity⟩
  | listenerEnds _ hcontents hrouter hended =>
      refine ⟨fun key => hrouter ▸ hget key, ?_, ?_⟩
      · intro conn link heq
        exact absurd (heq.symm.trans hended) (by simp)
      · intro j
        exact (congrArg (fun c => c.2.2) (hcontents j)).trans (hcapacity j)
  | @queued conn link channel _ hsend =>
      refine ⟨hget, fun _ _ heq => absurd heq (by simp), ?_⟩
      intro j
      refine Listener.links_update (P := fun c => c.maxCapacity = _) (fun _ => hcapacity j) ?_
      intro _
      exact (Channel.trySend_ok hsend).2.2.2.1.trans (hcapacity link)
  | lost _ _ => exact ⟨hget, fun _ _ heq => absurd heq (by simp), hcapacity⟩
  | @take conn link channel hrecv =>
      refine ⟨hget, hpending, ?_⟩
      intro j
      refine Listener.links_update (P := fun c => c.maxCapacity = _) (fun _ => hcapacity j) ?_
      intro _
      exact (Channel.recv_eq_some hrecv).2.2.1.trans (hcapacity link)
  | @dropLink link =>
      refine ⟨hget, hpending, ?_⟩
      intro j
      refine Listener.links_update (P := fun c => c.maxCapacity = _) (fun _ => hcapacity j) ?_
      intro _
      exact hcapacity link

/-! ## Flow -/

/-- The connections accepted for a link. -/
def Listener.acceptedFor (keys : List Key) (j : Nat) (l : Listener Key) (a : ListenerAction Key) :
    Option (IncomingConnection Key) :=
  (l.accepted a).bind (Option.guard fun conn => (start keys).router.get conn.remoteId = some j)

omit [DecidableEq Key] in
/-- Another link's step says nothing of this one. -/
theorem Listener.underway_update_of_ne {l : Listener Key} {link j : Nat} (hj : j ≠ link)
    (channel : Channel (IncomingConnection Key)) :
    ({ l with links := Function.update l.links link channel } : Listener Key).underway j
      = l.underway j := by
  simp [underway, hj]

/-- What a step hands over to a link and leaves under way to it was under way or has come in; nothing
    is lost but at the end of the link. -/
theorem ListenerStep.flow {keys : List Key} {l l' : Listener Key} {a : ListenerAction Key}
    (h : ListenerStep l a l') (hrun : l.Running keys) (j : Nat) :
    ((l.taken j a).toList ++ l'.underway j).Sublist
        (l.underway j ++ (l.acceptedFor keys j a).toList) ∧
      ((l.links j).closed = false → a ≠ .dropLink j →
        (l.taken j a).toList ++ l'.underway j
          = l.underway j ++ (l.acceptedFor keys j a).toList ∧ (l'.links j).closed = false) := by
  obtain ⟨hget, hpending, -⟩ := hrun
  cases h with
  | @route conn link hphase hlink =>
      rw [hget] at hlink
      have heq : (l.taken j (.accept conn)).toList ++
            ({ l with phase := .sending conn link } : Listener Key).underway j
          = l.underway j ++ (l.acceptedFor keys j (.accept conn)).toList := by
        by_cases hj : link = j
        · simp [Listener.taken, Listener.underway, Listener.acceptedFor, Listener.accepted,
            Option.guard, hphase, hlink, hj]
        · simp [Listener.taken, Listener.underway, Listener.acceptedFor, Listener.accepted,
            Option.guard, hphase, hlink, hj]
      exact ⟨heq ▸ List.Sublist.refl _, fun hopen _ => ⟨heq, hopen⟩⟩
  | @reject conn hphase hlink =>
      rw [hget] at hlink
      have heq : (l.taken j (.accept conn)).toList ++ l.underway j
          = l.underway j ++ (l.acceptedFor keys j (.accept conn)).toList := by
        simp [Listener.taken, Listener.acceptedFor, Listener.accepted, Option.guard, hlink]
      exact ⟨heq ▸ List.Sublist.refl _, fun hopen _ => ⟨heq, hopen⟩⟩
  | listenerEnds hphase hcontents hrouter hended =>
      have hqueue : (l'.links j).queue = (l.links j).queue := congrArg Prod.fst (hcontents j)
      have hclosed : (l'.links j).closed = (l.links j).closed :=
        congrArg (fun c => c.2.1) (hcontents j)
      have heq : (l.taken j .listenerEnds).toList ++ l'.underway j
          = l.underway j ++ (l.acceptedFor keys j .listenerEnds).toList := by
        simp [Listener.taken, Listener.underway, Listener.acceptedFor, Listener.accepted, hphase,
          hended, hqueue]
      exact ⟨heq ▸ List.Sublist.refl _, fun hopen _ => ⟨heq, hclosed.trans hopen⟩⟩
  | @queued conn link channel hphase hsend =>
      obtain ⟨-, hqueue, hclosed, -⟩ := Channel.trySend_ok hsend
      have heq : (l.taken j .sent).toList ++ ({ l with
            phase := .receiving, links := Function.update l.links link channel } :
              Listener Key).underway j
          = l.underway j ++ (l.acceptedFor keys j .sent).toList := by
        by_cases hj : link = j
        · subst hj
          simp [Listener.taken, Listener.underway, Listener.acceptedFor, Listener.accepted, hphase,
            hqueue]
        · have hj' : j ≠ link := fun h => hj h.symm
          simp [Listener.taken, Listener.underway, Listener.acceptedFor, Listener.accepted, hphase,
            hj, hj']
      refine ⟨heq ▸ List.Sublist.refl _, fun hopen _ => ⟨heq, ?_⟩⟩
      refine Listener.links_update (P := fun c => c.closed = false) (fun _ => hopen) ?_
      rintro rfl
      exact hclosed.trans hopen
  | @lost conn link hphase hsend =>
      have hclosed := Channel.trySend_closed hsend
      by_cases hj : link = j
      · subst hj
        refine ⟨?_, fun hopen _ => absurd (hopen.symm.trans hclosed) (by simp)⟩
        simp [Listener.taken, Listener.underway, Listener.acceptedFor, Listener.accepted, hphase]
      · have heq : (l.taken j .sent).toList ++
              ({ l with phase := .receiving } : Listener Key).underway j
            = l.underway j ++ (l.acceptedFor keys j .sent).toList := by
          simp [Listener.taken, Listener.underway, Listener.acceptedFor, Listener.accepted, hphase,
            hj]
        exact ⟨heq ▸ List.Sublist.refl _, fun hopen _ => ⟨heq, hopen⟩⟩
  | @take conn link channel hrecv =>
      obtain ⟨hqueue, hclosed, -⟩ := Channel.recv_eq_some hrecv
      have heq : (l.taken j (.take link)).toList ++
            ({ l with links := Function.update l.links link channel } : Listener Key).underway j
          = l.underway j ++ (l.acceptedFor keys j (.take link)).toList := by
        by_cases hj : link = j
        · subst hj
          simp [Listener.taken, Listener.underway, Listener.acceptedFor, Listener.accepted, hrecv,
            hqueue]
        · have hj' : j ≠ link := fun h => hj h.symm
          simp [Listener.taken, Listener.acceptedFor, Listener.accepted, hj,
            Listener.underway_update_of_ne hj']
      refine ⟨heq ▸ List.Sublist.refl _, fun hopen _ => ⟨heq, ?_⟩⟩
      refine Listener.links_update (P := fun c => c.closed = false) (fun _ => hopen) ?_
      rintro rfl
      exact hclosed.trans hopen
  | @dropLink link =>
      by_cases hj : link = j
      · subst hj
        refine ⟨?_, fun _ hne => absurd rfl hne⟩
        simp [Listener.taken, Listener.underway, Listener.acceptedFor, Listener.accepted,
          Channel.dropReceiver]
      · have hj' : j ≠ link := fun h => hj h.symm
        have heq : (l.taken j (.dropLink link)).toList ++
              ({ l with links := Function.update l.links link (l.links link).dropReceiver } :
                Listener Key).underway j
            = l.underway j ++ (l.acceptedFor keys j (.dropLink link)).toList := by
          simp [Listener.taken, Listener.acceptedFor, Listener.accepted,
            Listener.underway_update_of_ne hj']
        exact ⟨heq ▸ List.Sublist.refl _, fun hopen _ => ⟨heq, by simpa [hj'] using hopen⟩⟩

/-- What is closed is what came in with a key of nobody. -/
theorem ListenerStep.rejected_eq {keys : List Key} {l l' : Listener Key} {a : ListenerAction Key}
    (h : ListenerStep l a l') (hrun : l.Running keys) :
    l.rejected a = (l.accepted a).bind fun conn =>
      (Option.guard (fun conn => conn.remoteId ∉ keys) conn).map
        fun conn => ⟨conn, 0, "unknown peer"⟩ := by
  cases h with
  | @route conn link hphase hlink =>
      have hmem : conn.remoteId ∈ keys := by
        by_contra hmem
        rw [hrun.get_eq, (Listener.get_start_eq_none keys conn.remoteId).2 hmem] at hlink
        exact absurd hlink (by simp)
      simp [Listener.rejected, Listener.accepted, Option.guard, hlink, hmem]
  | @reject conn hphase hlink =>
      have hmem := (Listener.get_start_eq_none keys conn.remoteId).1 (hrun.get_eq _ ▸ hlink)
      simp [Listener.rejected, Listener.accepted, Option.guard, hlink, hmem]
  | _ => rfl

/-- What happens to a connection in a run of the router. -/
structure Listener.Routed (keys : List Key) (acts : List (ListenerAction Key))
    (l : Listener Key) : Prop where
  /-- Those of unknown keys, and no others, are closed. -/
  rejected : trace Listener.step Listener.rejected (start keys) acts
    = ((trace Listener.step Listener.accepted (start keys) acts).filter
        fun conn => conn.remoteId ∉ keys).map fun conn => ⟨conn, 0, "unknown peer"⟩
  /-- A link is given connections of its own key only, in the order they came in. -/
  own : ∀ j key, keys[j]? = some key →
    (trace Listener.step (Listener.taken j) (start keys) acts ++ l.underway j).Sublist
      ((trace Listener.step Listener.accepted (start keys) acts).filter
        fun conn => conn.remoteId = key)
  /-- The last link with a key is given all of them, unless it ended. -/
  all : ∀ j key, IsLastWith keys key j → .dropLink j ∉ acts →
    trace Listener.step (Listener.taken j) (start keys) acts ++ l.underway j
      = (trace Listener.step Listener.accepted (start keys) acts).filter
          fun conn => conn.remoteId = key
  /-- The others are given none. -/
  replaced : ∀ j key, keys[j]? = some key → ¬ IsLastWith keys key j →
    trace Listener.step (Listener.taken j) (start keys) acts ++ l.underway j = []
  /-- The router only ever waits for a link of the connection's key that has its channel full. -/
  waits : ∀ conn j, l.phase = .sending conn j → l.step .sent = none →
    IsLastWith keys conn.remoteId j ∧ (l.links j).closed = false ∧
      (l.links j).queue.length = INCOMING_CAPACITY

variable {keys : List Key} {acts : List (ListenerAction Key)} {l : Listener Key}

theorem Listener.running (hrun : runFrom Listener.step (start keys) acts = some l) :
    l.Running keys :=
  runFrom_invariant (fun _ _ _ hI hs => (step_sound hs).running hI) (Running.start keys) hrun

theorem Listener.underway_start (keys : List Key) (j : Nat) : (start keys).underway j = [] := by
  have hqueue : ((start keys).links j).queue = [] :=
    congrArg Prod.fst ((contents_start keys).1 j)
  simp [underway, (contents_start keys).2, hqueue]

theorem Listener.trace_acceptedFor (keys : List Key) (j : Nat) (l : Listener Key)
    (acts : List (ListenerAction Key)) :
    trace Listener.step (acceptedFor keys j) l acts
      = (trace Listener.step accepted l acts).filter
          fun conn => (start keys).router.get conn.remoteId = some j := by
  unfold acceptedFor
  rw [trace_bind, List.filterMap_eq_filter]

omit [DecidableEq Key] in
theorem IsLastWith.key_eq {key key' : Key} {j : Nat} (h : IsLastWith keys key' j)
    (hj : keys[j]? = some key) : key' = key :=
  Option.some.inj (h.1.symm.trans hj)

theorem Listener.rejected_of_run (hrun : runFrom Listener.step (start keys) acts = some l) :
    trace Listener.step rejected (start keys) acts
      = ((trace Listener.step accepted (start keys) acts).filter
          fun conn => conn.remoteId ∉ keys).map fun conn => ⟨conn, 0, "unknown peer"⟩ := by
  rw [trace_congr (fun _ _ _ hI hs => (step_sound hs).running hI)
    (fun _ _ _ hI hs => (step_sound hs).rejected_eq hI) (Running.start keys) hrun, trace_bind,
    ← List.map_filterMap, List.filterMap_eq_filter]

/-- What a link was given and what is under way to it, against what came in for it. -/
theorem Listener.flow_of_run (hrun : runFrom Listener.step (start keys) acts = some l) (j : Nat) :
    (trace Listener.step (taken j) (start keys) acts ++ l.underway j).Sublist
        ((trace Listener.step accepted (start keys) acts).filter
          fun conn => (start keys).router.get conn.remoteId = some j) ∧
      (.dropLink j ∉ acts →
        trace Listener.step (taken j) (start keys) acts ++ l.underway j
          = (trace Listener.step accepted (start keys) acts).filter
              fun conn => (start keys).router.get conn.remoteId = some j) := by
  rw [← trace_acceptedFor]
  refine ⟨?_, ?_⟩
  · have hflow := flow_of_meets FlowRel.sublist (C := fun _ _ => True) (I := Running keys)
      (fun _ _ _ hI _ hs => (step_sound hs).running hI)
      (fun _ _ _ hI _ hs => ((step_sound hs).flow hI j).1) (Running.start keys)
      (RunMeets.of_forall _ acts fun _ _ _ => trivial) hrun
    rwa [underway_start, List.nil_append] at hflow
  · intro hkept
    have hopen : ((start keys).links j).closed = false :=
      congrArg (fun c => c.2.1) ((contents_start keys).1 j)
    have hflow := flow_of_meets FlowRel.eq (C := fun _ a => a ≠ .dropLink j)
      (I := fun l => l.Running keys ∧ (l.links j).closed = false)
      (fun _ a _ hI ha hs => ⟨(step_sound hs).running hI.1,
        (((step_sound hs).flow hI.1 j).2 hI.2 ha).2⟩)
      (fun _ a _ hI ha hs => (((step_sound hs).flow hI.1 j).2 hI.2 ha).1)
      ⟨Running.start keys, hopen⟩
      (RunMeets.of_forall _ acts fun a ha _ heq => hkept (heq ▸ ha)) hrun
    rwa [underway_start, List.nil_append] at hflow

/-- **Connections go to their peer's link.** Whatever connections come in, in whatever order, and
    whatever the links do: a connection whose key is not configured is closed with code 0 and
    "unknown peer", and no other is; a link is given connections of its own peer's key only, in the
    order they came in, and all of them as long as it lives, unless a later peer of the configuration
    has the same key: then it is given none. The router stands still only for a link with the
    connection's key whose channel has no room. -/
theorem Listener.routed (hrun : runFrom Listener.step (start keys) acts = some l) :
    l.Routed keys acts where
  rejected := rejected_of_run hrun
  own := by
    intro j key hj
    refine (flow_of_run hrun j).1.trans (List.monotone_filter_right _ ?_)
    intro conn hconn
    have hlast := (get_start keys conn.remoteId j).1 (of_decide_eq_true hconn)
    exact decide_eq_true (hlast.key_eq hj)
  all := by
    intro j key hlast hkept
    rw [(flow_of_run hrun j).2 hkept]
    refine List.filter_congr ?_
    intro conn _
    rw [decide_eq_decide, get_start]
    refine ⟨fun h => h.key_eq hlast.1, ?_⟩
    rintro rfl
    exact hlast
  replaced := by
    intro j key hj hnot
    refine List.sublist_nil.1 ((flow_of_run hrun j).1.trans ?_)
    rw [List.filter_eq_nil_iff.2]
    intro conn _ hconn
    have hlast := (get_start keys conn.remoteId j).1 (of_decide_eq_true hconn)
    exact hnot (hlast.key_eq hj ▸ hlast)
  waits := by
    intro conn j hphase hstuck
    obtain ⟨-, hpending, hcapacity⟩ := running hrun
    refine ⟨(get_start keys conn.remoteId j).1 (hpending conn j hphase), ?_⟩
    simp only [step, hphase] at hstuck
    split at hstuck
    · exact absurd hstuck (by simp)
    · exact absurd hstuck (by simp)
    · next hfull =>
        obtain ⟨hclosed, hlength⟩ := Channel.trySend_full hfull
        exact ⟨hclosed, hlength.trans (hcapacity j)⟩

end

/-- Three peers, two of them with one key. Five connections of that key come in, and one of a
    stranger; the first link with the key gets none of them, the other link is waited for. -/
def repeatedPeerKey : List (ListenerAction Nat) :=
  [.accept ⟨0, 5⟩, .sent, .accept ⟨1, 9⟩, .accept ⟨2, 7⟩, .sent, .accept ⟨3, 5⟩, .sent, .take 2,
    .accept ⟨4, 5⟩, .sent, .accept ⟨5, 5⟩, .sent, .accept ⟨6, 5⟩, .sent, .take 1,
    .accept ⟨7, 5⟩]

theorem Listener.routed_repeatedPeerKey :
    ∃ l, runFrom Listener.step (Listener.start [5, 7, 5]) repeatedPeerKey = some l ∧
      trace Listener.step Listener.rejected (Listener.start [5, 7, 5]) repeatedPeerKey
        = [⟨⟨1, 9⟩, 0, "unknown peer"⟩] ∧
      trace Listener.step (Listener.taken 0) (Listener.start [5, 7, 5]) repeatedPeerKey
        ++ l.underway 0 = [] ∧
      (l.links 2).queue.length = 4 := by
  obtain ⟨l, hrun, hphase, hstuck⟩ : ∃ l,
      runFrom Listener.step (Listener.start [5, 7, 5]) repeatedPeerKey = some l ∧
        l.phase = .sending ⟨7, 5⟩ 2 ∧ l.step .sent = none := ⟨_, rfl, rfl, rfl⟩
  have hrouted := Listener.routed hrun
  refine ⟨l, hrun, hrouted.rejected.trans (by decide), ?_, (hrouted.waits _ 2 hphase hstuck).2.2⟩
  refine hrouted.replaced 0 5 rfl ?_
  rintro ⟨-, hlater⟩
  exact hlater 2 (by decide) rfl

end P2pVpn
