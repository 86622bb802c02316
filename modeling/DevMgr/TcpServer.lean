import DevMgr.ListHead
import DevMgr.Machine
/-!
# TcpServer — the client list of the TCP server

`server.c`: the loop thread accepts clients, reads from them, ticks and exits in callbacks of its event loop.  A
`Client` is in `client_list` through its `list` member and has a watcher; `client_cb` looks it up again by the
descriptor of the watcher it is called for.  Each callback is one step, for nothing else uses the list.

`opened` are the descriptors open in the process and `others` those of them that other code opened; the kernel gives a
number that is not open, and `client_cb` is called for a watcher that is started (`active`).  A client is named by its
address, which `malloc` gives, always, when nothing is allocated there; `mallocs` and `frees` count the calls that gave
and took it, and `accepted` all the clients.  `failed` records a use of the cast that the lookup leaves when nothing
matches, or a walk that does not end.
-/
namespace DevMgr

open Machines ListHeads

/-- The addresses a `list_head` can hold: `&client_list`, `&c->list`, and what `list_del` leaves. -/
inductive ListPtr (Client : Type) where
  | clientList
  | list (c : Client)
  | poison1
  | poison2
  deriving DecidableEq, Repr

structure TcpServer (Client : Type) where
  links : Links (ListPtr Client)
  clientfd : Client → Nat
  watcherFd : Client → Nat
  active : Client → Bool
  mallocs : Client → Nat
  frees : Client → Nat
  opened : Nat → Bool
  others : Nat → Bool
  sockfd : Nat
  listening : Bool
  accepted : Nat
  failed : Bool

inductive ServerEvent (Client : Type) where
  | openFd (t : Nat)
  | closeFd (t : Nat)
  | socketCb (c : Client) (newfd : Option Nat)
  | clientCb (c : Client) (nRead : Int)
  | periodicCb
  | asyncCb

namespace TcpServer

variable {Client : Type} [DecidableEq Client]

omit [DecidableEq Client] in
def fail (s : TcpServer Client) : TcpServer Client := { s with failed := true }

def listAddTail (s : TcpServer Client) (c : Client) : TcpServer Client :=
  { s with links := (s.links.initListHead (.list c)).listAddTail (.list c) .clientList }

def listDel (s : TcpServer Client) (c : Client) : TcpServer Client :=
  { s with links := s.links.listDel .poison1 .poison2 (.list c) }

def evIoStart (s : TcpServer Client) (c : Client) (fd : Nat) : TcpServer Client :=
  { s with watcherFd := Function.update s.watcherFd c fd, active := Function.update s.active c true }

def evIoStop (s : TcpServer Client) (c : Client) : TcpServer Client :=
  { s with active := Function.update s.active c false }

omit [DecidableEq Client] in
def close (s : TcpServer Client) (fd : Nat) : TcpServer Client :=
  { s with opened := Function.update s.opened fd false, others := Function.update s.others fd false }

def malloc (s : TcpServer Client) (c : Client) : TcpServer Client :=
  { s with mallocs := Function.update s.mallocs c (s.mallocs c + 1), accepted := s.accepted + 1 }

def free (s : TcpServer Client) (c : Client) : TcpServer Client :=
  { s with frees := Function.update s.frees c (s.frees c + 1) }

def handleNewClient (s : TcpServer Client) (c : Client) (fd : Nat) : TcpServer Client :=
  (({ s.malloc c with clientfd := Function.update s.clientfd c fd }).listAddTail c).evIoStart c fd

omit [DecidableEq Client] in
/-- The test of `get_client_by_fd`'s loop. -/
def hasFd (s : TcpServer Client) (fd : Nat) : ListPtr Client → Bool
  | .list c => s.clientfd c == fd
  | _ => false

/-- The walk over `client_list` to the first entry that satisfies `p`; more steps than it can have clients. -/
def walk (s : TcpServer Client) (p : ListPtr Client → Bool) : Option (ListPtr Client) :=
  s.links.findFrom .clientList p (s.accepted + 1) (s.links.next .clientList)

/-- The address of the `list` member of what it returns. -/
def getClientByFd (s : TcpServer Client) (fd : Nat) : Option (ListPtr Client) := s.walk (s.hasFd fd)

/-- `client_cb` for the watcher of `c`, whose `read` returns `nRead`. -/
def clientCb (s : TcpServer Client) (c : Client) (nRead : Int) : TcpServer Client :=
  let clifd := s.watcherFd c
  match s.getClientByFd clifd with
  | some (.list cli) => if nRead ≤ 0 then (((s.listDel cli).evIoStop cli).close clifd).free cli else s
  | _ => s.fail

/-- The body of the loop in `close_all_client`. -/
def closeClient (s : TcpServer Client) : ListPtr Client → TcpServer Client
  | .list c => (((s.evIoStop c).close (s.clientfd c)).listDel c).free c
  | _ => s.fail

def closeAllClient (s : TcpServer Client) : TcpServer Client :=
  let first := s.links.next .clientList
  (forEachSafe links closeClient .clientList (s.accepted + 1) s first (s.links.next first)).getD s.fail

def exitMainThread (s : TcpServer Client) : TcpServer Client :=
  { s.closeAllClient.close s.sockfd with listening := false }

def step (s : TcpServer Client) : ServerEvent Client → Option (TcpServer Client)
  | .openFd t => if s.opened t = false then
      some { s with opened := Function.update s.opened t true, others := Function.update s.others t true } else none
  | .closeFd t => if s.others t = true then some (s.close t) else none
  | .socketCb _ none => some s
  | .socketCb c (some newfd) => if s.listening = true ∧ s.opened newfd = false ∧ s.mallocs c = s.frees c then
      some ({ s with opened := Function.update s.opened newfd true }.handleNewClient c newfd) else none
  | .clientCb c nRead => if s.active c = true then some (s.clientCb c nRead) else none
  | .periodicCb => some (if (s.walk fun _ => false).isSome then s else s.fail)
  | .asyncCb => some s.exitMainThread

/-- After `main`'s `init` calls: `sockfd` is open and listens. -/
def start (links : Links (ListPtr Client)) (opened : Nat → Bool) (sockfd : Nat) : TcpServer Client :=
  { links := links.initListHead .clientList, clientfd := fun _ => 0, watcherFd := fun _ => 0, active := fun _ => false
    mallocs := fun _ => 0, frees := fun _ => 0, opened := Function.update opened sockfd true
    others := Function.update opened sockfd false, sockfd := sockfd, listening := true, accepted := 0, failed := false }

def machine (Client : Type) [DecidableEq Client] : Machine (TcpServer Client) (ServerEvent Client) where
  init s := ∃ links opened sockfd, s = start links opened sockfd
  step := step

/-! ## What every run keeps -/

variable {s s' : TcpServer Client} {a : ServerEvent Client} {l l₁ l₂ : List Client} {c d : Client} {fd : Nat}

/-- `client_list` has the clients `l`: those whose watcher is started, each with a descriptor of its own. -/
structure Inv (s : TcpServer Client) (l : List Client) : Prop where
  ring : Ring s.links .clientList (l.map .list)
  active : ∀ c, c ∈ l ↔ s.active c = true
  watcher : ∀ c ∈ l, s.watcherFd c = s.clientfd c
  opened : ∀ c ∈ l, s.opened (s.clientfd c) = true ∧ s.others (s.clientfd c) = false
  inj : ∀ c ∈ l, ∀ d ∈ l, s.clientfd c = s.clientfd d → c = d
  others : ∀ t, s.others t = true → s.opened t = true
  count : l.length ≤ s.accepted
  freed : ∀ c, s.mallocs c = s.frees c + if c ∈ l then 1 else 0
  listener : s.listening = true →
    s.opened s.sockfd = true ∧ s.others s.sockfd = false ∧ ∀ c ∈ l, s.clientfd c ≠ s.sockfd
  down : s.listening = false → l = []
  fine : s.failed = false

theorem inv_start (links : Links (ListPtr Client)) (opened : Nat → Bool) (sockfd : Nat) :
    Inv (start links opened sockfd) [] where
  ring := ring_initListHead links .clientList
  active := by simp [start]
  watcher := by simp
  opened := by simp
  inj := by simp
  others := by
    intro t ht
    by_cases he : t = sockfd
    · simp [start, he] at ht
    · simpa [start, he] using ht
  count := Nat.zero_le _
  freed := by simp [start]
  listener := fun _ => ⟨by simp [start], by simp [start], by simp⟩
  down := fun _ => rfl
  fine := rfl

omit [DecidableEq Client] in
/-- What other code has open after a `close` is open. -/
theorem others_close (h : ∀ t, s.others t = true → s.opened t = true) (fd : Nat) :
    ∀ t, (s.close fd).others t = true → (s.close fd).opened t = true := by
  intro t ht
  by_cases he : t = fd
  · simp [close, he] at ht
  · simp only [close, Function.update_of_ne he] at ht ⊢
    exact h t ht

theorem Inv.nodup (h : Inv s l) : l.Nodup := .of_map _ (List.nodup_cons.1 h.ring.nodup).2

/-- **A client leaves the list**, its descriptor is closed and it is freed. -/
theorem Inv.closeClient (h : Inv s (l₁ ++ c :: l₂)) : Inv (s.closeClient (.list c)) (l₁ ++ l₂) := by
  have hc : c ∈ l₁ ++ c :: l₂ := by simp
  have hnd := h.nodup
  have hout : c ∉ l₁ ++ l₂ := by
    rw [List.nodup_append, List.nodup_cons] at hnd
    simp only [List.mem_append, not_or]
    exact ⟨fun hm => hnd.2.2 c hm c List.mem_cons_self rfl, hnd.2.1.1⟩
  have hold : ∀ d ∈ l₁ ++ l₂, d ∈ l₁ ++ c :: l₂ ∧ d ≠ c := by
    intro d hd
    refine ⟨?_, fun he => hout (he ▸ hd)⟩
    rw [List.mem_append] at hd ⊢
    exact hd.imp_right (List.mem_cons_of_mem c)
  have hfd : ∀ d ∈ l₁ ++ l₂, s.clientfd d ≠ s.clientfd c := fun d hd he =>
    (hold d hd).2 (h.inj d (hold d hd).1 c hc he)
  constructor
  · have hr := h.ring
    rw [List.map_append, List.map_cons] at hr
    rw [List.map_append]
    exact hr.listDel .poison1 .poison2
  · intro d
    show d ∈ l₁ ++ l₂ ↔ Function.update s.active c false d = true
    by_cases hd : d = c
    · subst hd
      simp [hout]
    · rw [Function.update_of_ne hd, ← h.active]
      simp [hd]
  · exact fun d hd => h.watcher d (hold d hd).1
  · intro d hd
    show Function.update s.opened (s.clientfd c) false (s.clientfd d) = true ∧
      Function.update s.others (s.clientfd c) false (s.clientfd d) = false
    rw [Function.update_of_ne (hfd d hd), Function.update_of_ne (hfd d hd)]
    exact h.opened d (hold d hd).1
  · exact fun d hd e he => h.inj d (hold d hd).1 e (hold e he).1
  · exact others_close h.others (s.clientfd c)
  · have := h.count
    simp only [List.length_append, List.length_cons] at this ⊢
    exact Nat.le_trans (by omega) this
  · intro d
    show s.mallocs d = Function.update s.frees c (s.frees c + 1) d + if d ∈ l₁ ++ l₂ then 1 else 0
    by_cases hd : d = c
    · subst hd
      rw [Function.update_self, h.freed, if_pos hc, if_neg hout]
    · rw [Function.update_of_ne hd, h.freed]
      simp [hd]
  · intro hl
    obtain ⟨h1, h2, h3⟩ := h.listener hl
    have hne : s.sockfd ≠ s.clientfd c := Ne.symm (h3 c hc)
    refine ⟨?_, ?_, fun d hd => h3 d (hold d hd).1⟩
    · exact (Function.update_of_ne hne ..).trans h1
    · exact (Function.update_of_ne hne ..).trans h2
  · intro hl
    have := h.down hl
    simp at this
  · exact h.fine

/-- **A client joins the list**, with a descriptor that was not open. -/
theorem Inv.handleNewClient (h : Inv s l) (hl : s.listening = true) (hfd : s.opened fd = false)
    (hc : s.mallocs c = s.frees c) :
    Inv ({ s with opened := Function.update s.opened fd true }.handleNewClient c fd) (l ++ [c]) := by
  have hout : c ∉ l := by
    intro hm
    have := h.freed c
    rw [if_pos hm] at this
    omega
  have hne : ∀ d ∈ l, d ≠ c := fun d hd he => hout (he ▸ hd)
  have hfds : ∀ d ∈ l, s.clientfd d ≠ fd := by
    intro d hd he
    have := (h.opened d hd).1
    rw [he, hfd] at this
    cases this
  have hofd : s.others fd = false := by
    rw [← Bool.not_eq_true]
    intro ho
    have := h.others fd ho
    rw [hfd] at this
    cases this
  have hptr : (.list c : ListPtr Client) ∉ .clientList :: l.map .list := by simpa using hout
  have hcfd : ∀ d ∈ l, Function.update s.clientfd c fd d = s.clientfd d := fun d hd =>
    Function.update_of_ne (hne d hd) ..
  constructor
  · rw [List.map_append]
    exact (h.ring.initListHead hptr).listAddTail hptr
  · intro d
    show d ∈ l ++ [c] ↔ Function.update s.active c true d = true
    by_cases hd : d = c
    · simp [hd]
    · rw [Function.update_of_ne hd, ← h.active]
      simp [hd]
  · intro d hd
    show Function.update s.watcherFd c fd d = Function.update s.clientfd c fd d
    by_cases he : d = c
    · rw [he, Function.update_self, Function.update_self]
    · rw [Function.update_of_ne he, Function.update_of_ne he]
      exact h.watcher d (by simpa [he] using hd)
  · intro d hd
    show Function.update s.opened fd true (Function.update s.clientfd c fd d) = true ∧
      s.others (Function.update s.clientfd c fd d) = false
    by_cases he : d = c
    · rw [he, Function.update_self, Function.update_self]
      exact ⟨rfl, hofd⟩
    · have hm : d ∈ l := by simpa [he] using hd
      rw [hcfd d hm, Function.update_of_ne (hfds d hm)]
      exact h.opened d hm
  · intro d hd e he hde
    have hde' : Function.update s.clientfd c fd d = Function.update s.clientfd c fd e := hde
    by_cases h1 : d = c
    · by_cases h2 : e = c
      · rw [h1, h2]
      · have hm : e ∈ l := by simpa [h2] using he
        rw [h1, Function.update_self, hcfd e hm] at hde'
        exact absurd hde'.symm (hfds e hm)
    · have hm : d ∈ l := by simpa [h1] using hd
      rw [hcfd d hm] at hde'
      by_cases h2 : e = c
      · rw [h2, Function.update_self] at hde'
        exact absurd hde' (hfds d hm)
      · have hm' : e ∈ l := by simpa [h2] using he
        rw [hcfd e hm'] at hde'
        exact h.inj d hm e hm' hde'
  · intro t ht
    show Function.update s.opened fd true t = true
    by_cases he : t = fd
    · rw [he, Function.update_self]
    · rw [Function.update_of_ne he]
      exact h.others t ht
  · show (l ++ [c]).length ≤ s.accepted + 1
    simpa using h.count
  · intro d
    show Function.update s.mallocs c (s.mallocs c + 1) d = s.frees d + if d ∈ l ++ [c] then 1 else 0
    by_cases he : d = c
    · simp [he, hc]
    · rw [Function.update_of_ne he, h.freed]
      simp [he]
  · intro _
    obtain ⟨h1, h2, h3⟩ := h.listener hl
    have hs : s.sockfd ≠ fd := by
      rintro rfl
      rw [hfd] at h1
      cases h1
    refine ⟨(Function.update_of_ne hs ..).trans h1, h2, fun d hd => ?_⟩
    show Function.update s.clientfd c fd d ≠ s.sockfd
    by_cases he : d = c
    · rw [he, Function.update_self]
      exact Ne.symm hs
    · have hm : d ∈ l := by simpa [he] using hd
      rw [hcfd d hm]
      exact h3 d hm
  · intro hl'
    cases hl.symm.trans hl'
  · exact h.fine

theorem Inv.walk (h : Inv s l) (p : ListPtr Client → Bool) :
    s.walk p = some (((l.map .list).find? p).getD .clientList) := by
  apply h.ring.findFrom
  rw [List.length_map]
  exact Nat.lt_succ_of_le h.count

/-- **`get_client_by_fd` finds the client of a started watcher.** -/
theorem Inv.getClientByFd (h : Inv s l) (hc : s.active c = true) :
    s.getClientByFd (s.watcherFd c) = some (.list c) := by
  have hm : c ∈ l := (h.active c).2 hc
  have hself : s.hasFd (s.watcherFd c) (.list c) = true := beq_iff_eq.2 (h.watcher c hm).symm
  have hmem : ListPtr.list c ∈ l.map .list := List.mem_map_of_mem hm
  rw [TcpServer.getClientByFd, h.walk]
  cases hf : (l.map ListPtr.list).find? (s.hasFd (s.watcherFd c)) with
  | none => exact absurd hself (List.find?_eq_none.1 hf _ hmem)
  | some q =>
    obtain ⟨d, hd, rfl⟩ := List.mem_map.1 (List.mem_of_find?_eq_some hf)
    have hd' : s.hasFd (s.watcherFd c) (.list d) = true := List.find?_some hf
    have hfd : s.clientfd d = s.watcherFd c := beq_iff_eq.1 hd'
    rw [h.inj d hd c hm (hfd.trans (h.watcher c hm)), Option.getD_some]

/-- A callback of a client leaves it in the list, or closes it as the exit does. -/
theorem Inv.clientCb (h : Inv s l) (hc : s.active c = true) (nRead : Int) : ∃ l', Inv (s.clientCb c nRead) l' := by
  have hm : c ∈ l := (h.active c).2 hc
  rw [TcpServer.clientCb, h.getClientByFd hc]
  by_cases hr : nRead ≤ 0
  · obtain ⟨l₁, l₂, rfl⟩ := List.append_of_mem hm
    refine ⟨l₁ ++ l₂, ?_⟩
    have hcl : (((s.listDel c).evIoStop c).close (s.watcherFd c)).free c = s.closeClient (.list c) := by
      rw [h.watcher c hm]
      rfl
    simp only [if_pos hr]
    rw [hcl]
    exact h.closeClient
  · simp only [if_neg hr]
    exact ⟨l, h⟩

/-- **`close_all_client` ends with the list empty.** -/
theorem Inv.closeAllClient (h : Inv s l) : Inv s.closeAllClient [] := by
  let P : List (ListPtr Client) → TcpServer Client → Prop := fun ps t => ∃ l, ps = l.map .list ∧ Inv t l
  have hring : ∀ ps t, P ps t → Ring t.links .clientList ps := by
    rintro ps t ⟨l, rfl, ht⟩
    exact ht.ring
  have hbody : ∀ p ps t, P (p :: ps) t → P ps (t.closeClient p) := by
    rintro p ps t ⟨l, hl, ht⟩
    obtain ⟨c, l', rfl, rfl, rfl⟩ := List.map_eq_cons_iff.1 hl.symm
    have hi : Inv t ([] ++ c :: l') := ht
    exact ⟨l', rfl, hi.closeClient⟩
  have hlen : (l.map ListPtr.list).length < s.accepted + 1 := by
    rw [List.length_map]
    exact Nat.lt_succ_of_le h.count
  obtain ⟨s', hs', l', hl', hi⟩ := forEachSafe_del hring hbody (l.map .list) s (s.accepted + 1) ⟨l, rfl, h⟩ hlen
  obtain rfl : l' = [] := List.map_eq_nil_iff.1 hl'.symm
  rw [TcpServer.closeAllClient, hs', Option.getD_some]
  exact hi

theorem Inv.exitMainThread (h : Inv s l) : Inv s.exitMainThread [] := by
  have ha := h.closeAllClient
  exact { ha with
    opened := by simp, others := others_close ha.others s.sockfd, listener := nofun, down := fun _ => rfl }

theorem Inv.openFd (h : Inv s l) (hfd : s.opened fd = false) :
    Inv { s with opened := Function.update s.opened fd true, others := Function.update s.others fd true } l := by
  have hne : ∀ t, s.opened t = true → t ≠ fd := by
    rintro t ht rfl
    rw [hfd] at ht
    cases ht
  refine { h with opened := ?_, others := ?_, listener := ?_ }
  · intro c hc
    obtain ⟨h1, h2⟩ := h.opened c hc
    simp [hne _ h1, h1, h2]
  · intro t ht
    by_cases he : t = fd
    · simp [he]
    · simp only [Function.update_of_ne he] at ht ⊢
      exact h.others t ht
  · intro hl
    obtain ⟨h1, h2, h3⟩ := h.listener hl
    simp [hne _ h1, h1, h2]
    exact h3

theorem Inv.closeFd (h : Inv s l) (hfd : s.others fd = true) : Inv (s.close fd) l := by
  have hne : ∀ t, s.others t = false → t ≠ fd := by
    rintro t ht rfl
    rw [hfd] at ht
    cases ht
  refine { h with opened := ?_, others := others_close h.others fd, listener := ?_ }
  · intro c hc
    obtain ⟨h1, h2⟩ := h.opened c hc
    simp [close, hne _ h2, h1, h2]
  · intro hl
    obtain ⟨h1, h2, h3⟩ := h.listener hl
    simp [close, hne _ h2, h1, h2]
    exact h3

/-- **Every callback keeps the invariant.** -/
theorem Inv.step (h : Inv s l) (hs : step s a = some s') : ∃ l', Inv s' l' := by
  cases a with
  | openFd t =>
    simp only [TcpServer.step] at hs
    split at hs
    · cases hs
      exact ⟨l, h.openFd ‹_›⟩
    · cases hs
  | closeFd t =>
    simp only [TcpServer.step] at hs
    split at hs
    · cases hs
      exact ⟨l, h.closeFd ‹_›⟩
    · cases hs
  | socketCb c newfd =>
    cases newfd with
    | none =>
      cases hs
      exact ⟨l, h⟩
    | some newfd =>
      simp only [TcpServer.step] at hs
      split at hs
      · rename_i hg
        cases hs
        exact ⟨l ++ [c], h.handleNewClient hg.1 hg.2.1 hg.2.2⟩
      · cases hs
  | clientCb c nRead =>
    simp only [TcpServer.step] at hs
    split at hs
    · cases hs
      exact h.clientCb ‹_› nRead
    · cases hs
  | periodicCb =>
    simp only [TcpServer.step, h.walk, Option.isSome_some, if_true] at hs
    cases hs
    exact ⟨l, h⟩
  | asyncCb =>
    cases hs
    exact ⟨[], h.exitMainThread⟩

theorem inv_reach (h : (machine Client).Reach s) : ∃ l, Inv s l := by
  refine h.invariant (I := fun s => ∃ l, Inv s l) ?_ ?_
  · rintro s ⟨links, opened, sockfd, rfl⟩
    exact ⟨[], inv_start links opened sockfd⟩
  · rintro s a s' ⟨l, hi⟩ hs
    exact hi.step hs

/-- **The client list has exactly the clients whose watcher is started and whose socket is open**, each once and with
a descriptor of its own; the lookup in `client_cb` returns the client that embeds the watcher; and what `malloc` gave is
freed once: it is in the list or it was freed, and after the exit all of it was. -/
theorem client_list_live (h : (machine Client).Reach s) : ∃ l : List Client,
    (Ring s.links .clientList (l.map .list) ∧ l.Nodup) ∧
    (∀ c, c ∈ l ↔ s.active c = true ∧ s.opened (s.clientfd c) = true) ∧
    (∀ c ∈ l, ∀ d ∈ l, s.clientfd c = s.clientfd d → c = d) ∧
    (∀ c, s.active c = true → s.getClientByFd (s.watcherFd c) = some (.list c)) ∧
    (∀ c, s.mallocs c = s.frees c + if c ∈ l then 1 else 0) ∧
    (s.listening = false → ∀ c, s.mallocs c = s.frees c) ∧
    s.failed = false := by
  obtain ⟨l, hi⟩ := inv_reach h
  refine ⟨l, ⟨hi.ring, hi.nodup⟩, ?_, hi.inj, fun c hc => hi.getClientByFd hc, hi.freed, ?_, hi.fine⟩
  · intro c
    rw [hi.active]
    exact (and_iff_left_of_imp fun hc => (hi.opened c ((hi.active c).2 hc)).1).symm
  · intro hl c
    rw [hi.freed, hi.down hl]
    simp

/-- Two clients connect on the descriptors 5 and 6, the first closes, and the next one gets its address and its number;
the lookup returns it. -/
theorem client_list_live_reuse : ∃ (s : TcpServer Nat) (l : List Nat), (machine Nat).Reach s ∧
    Ring s.links .clientList (l.map .list) ∧ 0 ∈ l ∧ 1 ∈ l ∧ s.watcherFd 0 = 5 ∧ s.getClientByFd 5 = some (.list 0) ∧
    s.mallocs 0 = 2 ∧ s.frees 0 = 1 := by
  let links : Links (ListPtr Nat) := { next := fun p => p, prev := fun p => p }
  let start : TcpServer Nat := start links (fun _ => false) 3
  obtain ⟨s, hs, hv⟩ := Option.map_eq_some_iff.1 (show ((machine Nat).run start
    [.socketCb 0 (some 5), .socketCb 1 (some 6), .clientCb 0 0, .socketCb 0 (some 5)]).map
      (fun s => ([s.active 0, s.active 1, s.opened 5, s.opened 6],
        [s.clientfd 0, s.clientfd 1, s.watcherFd 0, s.mallocs 0])) =
          some ([true, true, true, true], [5, 6, 5, 2]) by decide)
  have hr : (machine Nat).Reach s := Machine.Reach.run (.init ⟨links, fun _ => false, 3, rfl⟩) hs
  obtain ⟨l, ⟨hring, -⟩, hmem, -, hget, hfree, -⟩ := client_list_live hr
  simp only [Prod.mk.injEq, List.cons.injEq, and_true] at hv
  obtain ⟨⟨h0, h1, ho5, ho6⟩, hf0, hf1, hw, hm⟩ := hv
  have hin : 0 ∈ l := by
    rw [hmem, hf0]
    exact ⟨h0, ho5⟩
  have hin' : 1 ∈ l := by
    rw [hmem, hf1]
    exact ⟨h1, ho6⟩
  have hfound := hget 0 h0
  rw [hw] at hfound
  have hcount := hfree 0
  rw [hm, if_pos hin] at hcount
  exact ⟨s, l, hr, hring, hin, hin', hw, hfound, hm, by omega⟩

end TcpServer

end DevMgr
