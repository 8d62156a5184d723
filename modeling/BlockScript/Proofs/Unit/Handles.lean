import BlockScript.Proofs.Unit.Evolves

/-!
# Handles and the units they close

Several stacks of units live side by side, each numbered when it is created, and anybody may
present any handle to any of them at any time: a handle is only a pair of numbers, and it
outlives the unit it was issued for. What the handles are worth is told by a ledger that is
kept from the outside. It looks at no number: it notes for which unit each handle was issued,
and that closing takes away the innermost unit and truncating all but the outermost ones.

A stack closes a unit exactly when it is given the handle that the ledger has for its innermost
one, and the right kind. This follows from one invariant between the stacks and the ledger,
which each request preserves.
-/

namespace BlockScript

variable {α : Type}

/-! ## Requests -/

/-- The stacks that were created, in this order, and the number that the next one gets. -/
structure Yard (α : Type) where
  nextOwner : Nat := 1
  members : List (UnitStack α) := []

/-- What may be asked of the stacks. A stack is referred to by its place, a unit only by a
handle, whatever its origin. -/
inductive Request (α : Type) where
  | create (limit : Nat)
  | open (place : Nat) (kind : UnitKind) (name : String) (payload : α)
  | close (place : Nat) (handle : UnitHandle) (kind : UnitKind) (line : Option UInt32)
  | truncate (place count : Nat)
  | enter (place : Nat)
  | exit (place : Nat)
  /-- Change what the innermost unit carries. -/
  | revise (place : Nat) (change : α → α)

/-- What comes back. -/
inductive Answer (α : Type) where
  | done
  | issued (handle : UnitHandle)
  | closed (unit : OpenUnit α)
  | discarded (units : List (OpenUnit α))
  | refused (error : CompileError)
  /-- There is no stack at the place. -/
  | absent

namespace Yard

/-- Ask something of one stack. What fails changes nothing. -/
def ask (yard : Yard α) (place : Nat)
    (question : UnitStack α → Except CompileError (Answer α × UnitStack α)) : Answer α × Yard α :=
  match yard.members[place]? with
  | none => (.absent, yard)
  | some stack =>
    match question stack with
    | .error error => (.refused error, yard)
    | .ok (answer, later) => (answer, { yard with members := yard.members.set place later })

/-- Carry out one request. -/
def perform (yard : Yard α) : Request α → Answer α × Yard α
  | .create limit => (.done,
      { nextOwner := yard.nextOwner + 1, members := yard.members ++ [.new yard.nextOwner limit] })
  | .open place kind name payload => yard.ask place fun stack =>
      (stack.open kind name payload).map fun (handle, later) => (.issued handle, later)
  | .close place handle kind line => yard.ask place fun stack =>
      (stack.close handle kind line).map fun (unit, later) => (.closed unit, later)
  | .truncate place count => yard.ask place fun stack =>
      .ok (.discarded (stack.truncate count).1, (stack.truncate count).2)
  | .enter place => yard.ask place fun stack => stack.enter.map fun later => (.done, later)
  | .exit place => yard.ask place fun stack => .ok (.done, stack.exit)
  | .revise place change => yard.ask place fun stack => .ok (.done, stack.mapTop change)

end Yard

/-! ## The ledger -/

/-- What the ledger says of one unit: the handle that opening it returned, and as what it was
opened. -/
structure Ticket where
  handle : UnitHandle
  kind : UnitKind
  name : String
deriving DecidableEq, Repr

/-- What the ledger says of one stack. -/
structure Account where
  /-- The nesting limit it was created with. -/
  limit : Nat
  /-- The units that are open, innermost first. -/
  standing : List Ticket := []
  /-- The units that were closed or discarded. -/
  lapsed : List Ticket := []
deriving DecidableEq, Repr

namespace Account

/-- All units that were ever opened on the stack. -/
def issued (account : Account) : List Ticket := account.standing ++ account.lapsed

/-- A unit is opened inside the others. -/
def enroll (account : Account) (ticket : Ticket) : Account :=
  { account with standing := ticket :: account.standing }

/-- The innermost units are gone. -/
def lapse (account : Account) (count : Nat) : Account :=
  { account with
    standing := account.standing.drop count
    lapsed := account.standing.take count ++ account.lapsed }

end Account

/-- The accounts of all stacks, in the order in which they were created. -/
abbrev Ledger := List Account

/-- Note a request and how it was answered. -/
def Ledger.note (ledger : Ledger) (request : Request α) (answer : Answer α) : Ledger :=
  match request, answer with
  | .create limit, _ => ledger ++ [{ limit := limit }]
  | .open place kind name _, .issued handle => ledger.modify place (·.enroll ⟨handle, kind, name⟩)
  | .close place .., .closed _ => ledger.modify place (·.lapse 1)
  | .truncate place count, .discarded _ =>
      ledger.modify place fun account => account.lapse (account.standing.length - count)
  | _, _ => ledger

/-- One request, and the note of it. -/
def Yard.noted (state : Yard α × Ledger) (request : Request α) : Yard α × Ledger :=
  ((state.1.perform request).2, state.2.note request (state.1.perform request).1)

/-- What requests lead to, one after another. In the beginning there are no stacks. -/
def Yard.after (requests : List (Request α)) : Yard α × Ledger := requests.foldl noted ({}, [])

theorem Yard.after_append (requests more : List (Request α)) :
    after (requests ++ more) = more.foldl noted (after requests) := List.foldl_append

/-! ## One stack and its account -/

/-- What the ledger should say of a unit that is open on the stack. -/
def OpenUnit.ticket (unit : OpenUnit α) (owner : Nat) : Ticket :=
  ⟨⟨owner, unit.id⟩, unit.kind, unit.name⟩

namespace UnitStack

variable {stack later : UnitStack α} {account : Account}

/-- What the ledger should say of the units that are open on the stack. -/
def tickets (stack : UnitStack α) : List Ticket := stack.units.map (·.ticket stack.owner)

/-- The account is right, and nothing in it can be mixed up. -/
structure Audited (stack : UnitStack α) (account : Account) : Prop where
  standing : account.standing = stack.tickets
  owner : ∀ ticket ∈ account.issued, ticket.handle.owner = stack.owner
  fresh : ∀ ticket ∈ account.issued, ticket.handle.id < stack.nextId
  distinct : (account.issued.map (·.handle.id)).Nodup
  limit : stack.maxNesting = account.limit
  within : stack.size + stack.nesting ≤ account.limit

theorem length_tickets (stack : UnitStack α) : stack.tickets.length = stack.size :=
  List.length_map ..

/-- Neither the numbers nor the units have changed, and no more regions than allowed are
open. -/
theorem Audited.rest (audited : stack.Audited account) (tickets : later.tickets = stack.tickets)
    (owner : later.owner = stack.owner) (nextId : later.nextId = stack.nextId)
    (limit : later.maxNesting = stack.maxNesting)
    (within : later.size + later.nesting ≤ stack.maxNesting) : later.Audited account where
  standing := audited.standing.trans tickets.symm
  owner ticket member := (audited.owner ticket member).trans owner.symm
  fresh ticket member := nextId.symm ▸ audited.fresh ticket member
  distinct := audited.distinct
  limit := limit.trans audited.limit
  within := audited.limit ▸ within

theorem Audited.new (owner limit : Nat) : (UnitStack.new (α := α) owner limit).Audited { limit } where
  standing := rfl
  owner := by simp [Account.issued]
  fresh := by simp [Account.issued]
  distinct := List.nodup_nil
  limit := rfl
  within := Nat.zero_le _

theorem open_room {kind : UnitKind} {name : String} {payload : α} {handle : UnitHandle}
    (h : stack.open kind name payload = .ok (handle, later)) :
    stack.size + stack.nesting + 1 ≤ stack.maxNesting := by
  rw [open_eq] at h
  split at h
  · assumption
  · cases h

theorem Audited.open (audited : stack.Audited account) {kind : UnitKind} {name : String}
    {payload : α} {handle : UnitHandle} (h : stack.open kind name payload = .ok (handle, later)) :
    later.Audited (account.enroll ⟨handle, kind, name⟩) := by
  have room := open_room h
  obtain ⟨rfl, rfl⟩ := open_ok h
  have issued (ticket : Ticket)
      (member : ticket ∈ (account.enroll ⟨⟨stack.owner, stack.nextId⟩, kind, name⟩).issued) :
      ticket = ⟨⟨stack.owner, stack.nextId⟩, kind, name⟩ ∨ ticket ∈ account.issued :=
    List.mem_cons.mp member
  constructor
  case standing => exact congrArg (_ :: ·) audited.standing
  case owner =>
    intro ticket member
    rcases issued ticket member with rfl | member
    · rfl
    · exact audited.owner ticket member
  case fresh =>
    intro ticket member
    rcases issued ticket member with rfl | member
    · exact Nat.lt_succ_self _
    · exact Nat.lt_succ_of_lt (audited.fresh ticket member)
  case distinct =>
    apply List.nodup_cons.mpr
    constructor
    · -- the number of the new unit is larger than every one that was issued
      intro member
      obtain ⟨ticket, member, same⟩ := List.mem_map.mp member
      exact absurd same (Nat.ne_of_lt (audited.fresh ticket member))
    · exact audited.distinct
  case limit => exact audited.limit
  case within =>
    have limit := audited.limit
    simp only [size, List.length_cons, Account.enroll] at room ⊢
    omega

/-- The innermost units are closed or discarded. -/
theorem Audited.drop (audited : stack.Audited account) (count : Nat) :
    ({ stack with units := stack.units.drop count }).Audited (account.lapse count) := by
  have issued : ((account.lapse count).issued).Perm account.issued := by
    unfold Account.issued Account.lapse
    rw [← List.append_assoc]
    apply List.Perm.append_right
    calc account.standing.drop count ++ account.standing.take count
        |>.Perm (account.standing.take count ++ account.standing.drop count) :=
          List.perm_append_comm
      _ = account.standing := List.take_append_drop count account.standing
  constructor
  case standing =>
    show account.standing.drop count = _
    rw [audited.standing]
    exact (List.map_drop ..).symm
  case owner => exact fun ticket member => audited.owner ticket (issued.mem_iff.mp member)
  case fresh => exact fun ticket member => audited.fresh ticket (issued.mem_iff.mp member)
  case distinct => exact (issued.map _).nodup_iff.mpr audited.distinct
  case limit => exact audited.limit
  case within =>
    have within := audited.within
    simp only [size, List.length_drop, Account.lapse] at within ⊢
    omega

theorem Audited.close (audited : stack.Audited account) {handle : UnitHandle} {kind : UnitKind}
    {line : Option UInt32} {unit : OpenUnit α}
    (h : stack.close handle kind line = .ok (unit, later)) : later.Audited (account.lapse 1) := by
  obtain ⟨-, -, -, units, hlater⟩ := close_ok h
  rw [hlater]
  have rest : later.units = stack.units.drop 1 := by rw [units, List.drop_one, List.tail_cons]
  rw [rest]
  exact audited.drop 1

theorem Audited.truncate (audited : stack.Audited account) (count : Nat) :
    (stack.truncate count).2.Audited (account.lapse (account.standing.length - count)) := by
  rw [audited.standing, length_tickets]
  exact audited.drop _

theorem owner_enter (h : stack.enter = .ok later) : later.owner = stack.owner := by
  rw [enter_eq] at h
  split at h <;> cases h
  rfl

theorem Audited.enter (audited : stack.Audited account) (h : stack.enter = .ok later) :
    later.Audited account := by
  rw [enter_eq] at h
  split at h
  · rename_i room
    cases h
    exact audited.rest rfl rfl rfl rfl room
  · cases h

theorem Audited.exit (audited : stack.Audited account) : stack.exit.Audited account := by
  have within := audited.limit ▸ audited.within
  exact audited.rest (by rfl) (by rfl) (by rfl) (by rfl)
    (Nat.le_trans (Nat.add_le_add_left (Nat.sub_le ..) _) within)

theorem tickets_mapTop (stack : UnitStack α) (change : α → α) :
    (stack.mapTop change).tickets = stack.tickets := by
  unfold tickets mapTop
  split <;> rfl

theorem size_mapTop (stack : UnitStack α) (change : α → α) :
    (stack.mapTop change).size = stack.size := by
  rw [← length_tickets, tickets_mapTop, length_tickets]

theorem Audited.mapTop (audited : stack.Audited account) (change : α → α) :
    (stack.mapTop change).Audited account := by
  obtain ⟨nextId, owner, nesting, limit⟩ := stack.mapTop_rest change
  apply audited.rest (stack.tickets_mapTop change) owner nextId limit
  rw [size_mapTop, nesting]
  exact audited.limit ▸ audited.within

/-- The right handle is the one that the ledger has for the innermost unit. -/
theorem Audited.close_iff (audited : stack.Audited account) (handle : UnitHandle)
    (kind : UnitKind) (line : Option UInt32) :
    (∃ unit later, stack.close handle kind line = .ok (unit, later)) ↔
      ∃ name outer, account.standing = ⟨handle, kind, name⟩ :: outer := by
  rw [audited.standing]
  constructor
  · rintro ⟨unit, later, h⟩
    obtain ⟨owner, id, rfl, units, -⟩ := close_ok h
    refine ⟨unit.name, later.units.map (·.ticket stack.owner), ?_⟩
    rw [tickets, units, List.map_cons, OpenUnit.ticket, ← owner, id]
  · rintro ⟨name, outer, h⟩
    obtain ⟨unit, rest, units, ticket, -⟩ := List.map_eq_cons_iff.mp h
    cases ticket
    exact ⟨unit, _, close_eq units rfl rfl line⟩

/-- The handle of a unit that is gone closes none of the others. -/
theorem Audited.refuses_lapsed (audited : stack.Audited account) {ticket : Ticket}
    (lapsed : ticket ∈ account.lapsed) (kind : UnitKind) (line : Option UInt32) :
    ¬∃ unit later, stack.close ticket.handle kind line = .ok (unit, later) := by
  rw [audited.close_iff]
  rintro ⟨name, outer, standing⟩
  have distinct := audited.distinct
  rw [Account.issued, standing, List.cons_append, List.map_cons, List.nodup_cons] at distinct
  exact distinct.1 (List.mem_map.mpr ⟨ticket, List.mem_append_right _ lapsed, rfl⟩)

end UnitStack

/-! ## All stacks -/

/-- What has lapsed stays so. -/
def Ledger.Extends (ledger later : Ledger) : Prop :=
  ∀ (place : Nat) (account : Account), ledger[place]? = some account →
    ∃ account' : Account, later[place]? = some account' ∧ account.lapsed ⊆ account'.lapsed

namespace Ledger

variable {ledger middle later : Ledger}

theorem Extends.refl (ledger : Ledger) : ledger.Extends ledger :=
  fun _ account found => ⟨account, found, List.Subset.refl _⟩

theorem Extends.trans (h₁ : ledger.Extends middle) (h₂ : middle.Extends later) :
    ledger.Extends later := by
  intro place account found
  obtain ⟨account', found', lapsed⟩ := h₁ place account found
  obtain ⟨account'', found'', lapsed'⟩ := h₂ place account' found'
  exact ⟨account'', found'', List.Subset.trans lapsed lapsed'⟩

theorem extends_modify {change : Account → Account}
    (kept : ∀ account, account.lapsed ⊆ (change account).lapsed) (ledger : Ledger) (place : Nat) :
    ledger.Extends (ledger.modify place change) := by
  intro found account at_found
  by_cases here : place = found
  · subst here
    refine ⟨change account, ?_, kept account⟩
    rw [List.getElem?_modify_eq, at_found]
    rfl
  · refine ⟨account, ?_, List.Subset.refl _⟩
    rw [List.getElem?_modify_ne _ _ here, at_found]

theorem extends_note (ledger : Ledger) (request : Request α) (answer : Answer α) :
    ledger.Extends (ledger.note request answer) := by
  have enroll (ticket : Ticket) (account : Account) :
      account.lapsed ⊆ (account.enroll ticket).lapsed := List.Subset.refl _
  have lapse (count : Nat) (account : Account) : account.lapsed ⊆ (account.lapse count).lapsed :=
    List.subset_append_right ..
  unfold note
  split
  · intro place account found
    exact ⟨account, List.getElem?_append_left (List.getElem?_eq_some_iff.mp found).1 ▸ found,
      List.Subset.refl _⟩
  · exact extends_modify (enroll _) ledger _
  · exact extends_modify (lapse 1) ledger _
  · exact extends_modify (fun account => lapse _ account) ledger _
  · exact .refl ledger

end Ledger

namespace Yard

variable {yard : Yard α} {ledger : Ledger}

/-- Asking one stack has one of three results. -/
theorem ask_cases (yard : Yard α) (place : Nat)
    (question : UnitStack α → Except CompileError (Answer α × UnitStack α)) :
    yard.ask place question = (.absent, yard) ∨
    (∃ error, yard.ask place question = (.refused error, yard)) ∨
    ∃ stack answer later, yard.members[place]? = some stack ∧
      question stack = .ok (answer, later) ∧
      yard.ask place question = (answer, { yard with members := yard.members.set place later }) := by
  unfold ask
  cases found : yard.members[place]? with
  | none => exact .inl rfl
  | some stack =>
      cases asked : question stack with
      | error error => exact .inr (.inl ⟨error, by simp only [asked]⟩)
      | ok result => exact .inr (.inr ⟨stack, result.1, result.2, rfl, asked, by simp only [asked]⟩)

/-- Every account is right, and no two stacks have the same number. -/
structure Audited (yard : Yard α) (ledger : Ledger) : Prop where
  length : ledger.length = yard.members.length
  accounts : ∀ (place : Nat) stack account, yard.members[place]? = some stack →
    ledger[place]? = some account → stack.Audited account
  numbered : ∀ stack ∈ yard.members, stack.owner < yard.nextOwner
  distinct : (yard.members.map (·.owner)).Nodup

theorem Audited.create (audited : yard.Audited ledger) (limit : Nat) :
    ({ nextOwner := yard.nextOwner + 1
       members := yard.members ++ [.new yard.nextOwner limit] } : Yard α).Audited
      (ledger ++ [{ limit := limit }]) := by
  constructor
  case length => simp [audited.length]
  case accounts =>
    intro place stack account found_stack found
    rcases Nat.lt_or_ge place yard.members.length with old | new
    · rw [List.getElem?_append_left old] at found_stack
      rw [List.getElem?_append_left (audited.length ▸ old)] at found
      exact audited.accounts place stack account found_stack found
    · rw [List.getElem?_append_right new] at found_stack
      rw [List.getElem?_append_right (audited.length ▸ new)] at found
      rw [List.mem_singleton.mp (List.mem_of_getElem? found_stack),
        List.mem_singleton.mp (List.mem_of_getElem? found)]
      exact .new ..
  case numbered =>
    intro stack member
    rcases List.mem_append.mp member with old | new
    · exact Nat.lt_succ_of_lt (audited.numbered stack old)
    · rw [List.mem_singleton.mp new]
      exact Nat.lt_succ_self _
  case distinct =>
    rw [List.map_append, List.nodup_append]
    refine ⟨audited.distinct, by simp, ?_⟩
    intro owner old owner' new same
    obtain ⟨stack, member, rfl⟩ := List.mem_map.mp old
    rw [List.mem_singleton.mp new] at same
    exact absurd same (Nat.ne_of_lt (audited.numbered stack member))

/-- One stack changes, and its account with it. -/
theorem Audited.set (audited : yard.Audited ledger) {place : Nat} {stack later : UnitStack α}
    (found : yard.members[place]? = some stack) (owner : later.owner = stack.owner)
    {change : Account → Account}
    (kept : ∀ account, stack.Audited account → later.Audited (change account)) :
    ({ yard with members := yard.members.set place later }).Audited (ledger.modify place change) := by
  constructor
  case length => simp [audited.length]
  case accounts =>
    intro at_place stack' account found_stack found_account
    by_cases here : place = at_place
    · subst here
      rw [List.getElem?_set_self (List.getElem?_eq_some_iff.mp found).1] at found_stack
      rw [List.getElem?_modify_eq] at found_account
      obtain ⟨account', before, rfl⟩ := Option.map_eq_some_iff.mp found_account
      cases found_stack
      exact kept account' (audited.accounts place stack account' found before)
    · rw [List.getElem?_set_ne here] at found_stack
      rw [List.getElem?_modify_ne _ _ here] at found_account
      exact audited.accounts at_place stack' account found_stack found_account
  case numbered =>
    intro stack' member
    rcases List.mem_or_eq_of_mem_set member with old | rfl
    · exact audited.numbered stack' old
    · exact owner ▸ audited.numbered stack (List.mem_of_getElem? found)
  case distinct =>
    obtain ⟨bound, rfl⟩ := List.getElem?_eq_some_iff.mp found
    have same : (yard.members.set place later).map (·.owner) = yard.members.map (·.owner) := by
      calc (yard.members.set place later).map (·.owner)
        _ = (yard.members.set place yard.members[place]).map (·.owner) := by
            rw [List.map_set, List.map_set, owner]
        _ = yard.members.map (·.owner) := by rw [List.set_getElem_self]
    exact same ▸ audited.distinct

/-- One stack is asked, and its account is changed as the answer says. -/
theorem Audited.ask (audited : yard.Audited ledger) (request : Request α) {place : Nat}
    {question : UnitStack α → Except CompileError (Answer α × UnitStack α)}
    (absent : ledger.note request .absent = ledger)
    (refused : ∀ error, ledger.note request (.refused error) = ledger)
    (answered : ∀ stack answer later, question stack = .ok (answer, later) →
      ∃ change, ledger.note request answer = ledger.modify place change ∧
        later.owner = stack.owner ∧
        ∀ account, stack.Audited account → later.Audited (change account)) :
    (yard.ask place question).2.Audited (ledger.note request (yard.ask place question).1) := by
  rcases yard.ask_cases place question with h | ⟨error, h⟩ | ⟨stack, answer, later, found, ok, h⟩
  · rw [h, absent]
    exact audited
  · rw [h, refused]
    exact audited
  · obtain ⟨change, noted, owner, kept⟩ := answered stack answer later ok
    rw [h, noted]
    exact audited.set found owner kept

private theorem map_ok {ε β γ : Type} {result : Except ε β} {f : β → γ} {mapped : γ}
    (h : result.map f = .ok mapped) : ∃ value, result = .ok value ∧ mapped = f value := by
  cases result with
  | error error => cases h
  | ok value => exact ⟨value, rfl, (Except.ok.inj h).symm⟩

/-- One request keeps the ledger right. -/
theorem Audited.noted (audited : yard.Audited ledger) (request : Request α) :
    (Yard.noted (yard, ledger) request).1.Audited (Yard.noted (yard, ledger) request).2 := by
  have unchanged (place : Nat) : ledger = ledger.modify place id := (List.modify_id ..).symm
  cases request with
  | create limit => exact audited.create limit
  | «open» place kind name payload =>
      apply audited.ask (.open place kind name payload) rfl (fun _ => rfl)
      intro stack answer later h
      obtain ⟨⟨handle, opened⟩, ok, result⟩ := map_ok h
      cases result
      exact ⟨_, rfl, by rw [(UnitStack.open_ok ok).2], fun _ audited => audited.open ok⟩
  | close place handle kind line =>
      apply audited.ask (.close place handle kind line) rfl (fun _ => rfl)
      intro stack answer later h
      obtain ⟨⟨unit, closed⟩, ok, result⟩ := map_ok h
      cases result
      exact ⟨_, rfl, (UnitStack.Fewer.of_close ok).owner, fun _ audited => audited.close ok⟩
  | truncate place count =>
      apply audited.ask (.truncate place count) rfl (fun _ => rfl)
      intro stack answer later h
      cases h
      exact ⟨_, rfl, rfl, fun _ audited => audited.truncate count⟩
  | enter place =>
      apply audited.ask (.enter place) rfl (fun _ => rfl)
      intro stack answer later h
      obtain ⟨entered, ok, result⟩ := map_ok h
      cases result
      exact ⟨id, unchanged place, UnitStack.owner_enter ok, fun _ audited => audited.enter ok⟩
  | exit place =>
      apply audited.ask (.exit place) rfl (fun _ => rfl)
      intro stack answer later h
      cases h
      exact ⟨id, unchanged place, rfl, fun _ audited => audited.exit⟩
  | revise place change =>
      apply audited.ask (.revise place change) rfl (fun _ => rfl)
      intro stack answer later h
      cases h
      exact ⟨id, unchanged place, (stack.mapTop_rest change).2.1,
        fun _ audited => audited.mapTop change⟩

/-- Whatever was requested, the ledger is right. -/
theorem audited_after (requests : List (Request α)) :
    (after requests).1.Audited (after requests).2 := by
  have start : ({} : Yard α).Audited [] := ⟨rfl, by simp, by simp, List.nodup_nil⟩
  have run (state : Yard α × Ledger) (audited : state.1.Audited state.2) :
      (requests.foldl Yard.noted state).1.Audited (requests.foldl Yard.noted state).2 := by
    induction requests generalizing state with
    | nil => exact audited
    | cons request requests ih => exact ih _ (audited.noted request)
  exact run ({}, []) start

/-- What has lapsed stays so, whatever is requested. -/
theorem extends_after (requests more : List (Request α)) :
    Ledger.Extends (after requests).2 (after (requests ++ more)).2 := by
  rw [after_append]
  generalize after requests = state
  induction more generalizing state with
  | nil => exact .refl state.2
  | cons request more ih =>
      exact (state.2.extends_note request (state.1.perform request).1).trans
        (ih (noted state request))

/-- Two stacks that issued the same handle are one. -/
theorem Audited.issuer (audited : yard.Audited ledger) {place other : Nat}
    {stack : UnitStack α} {account account' : Account}
    (found_stack : yard.members[place]? = some stack) (found : ledger[place]? = some account)
    (found' : ledger[other]? = some account') {ticket ticket' : Ticket}
    (issued : ticket ∈ account.issued) (issued' : ticket' ∈ account'.issued)
    (same : ticket'.handle = ticket.handle) : other = place := by
  obtain ⟨bound, -⟩ := List.getElem?_eq_some_iff.mp found'
  have bound : other < yard.members.length := audited.length ▸ bound
  have found_other := List.getElem?_eq_getElem bound
  have owner := (audited.accounts place stack account found_stack found).owner ticket issued
  have owner' := (audited.accounts other _ account' found_other found').owner ticket' issued'
  have bound : other < (yard.members.map (·.owner)).length := by simpa
  apply (List.getElem?_inj bound audited.distinct).mp
  rw [List.getElem?_map, List.getElem?_map, found_other, found_stack]
  exact congrArg some (owner'.symm.trans ((congrArg UnitHandle.owner same).trans owner))

/-- Once a unit is gone, no stack takes its handle. -/
theorem Audited.refuses_lapsed (audited : yard.Audited ledger) {place other : Nat}
    {account : Account} {stack : UnitStack α} (found : ledger[place]? = some account)
    {ticket : Ticket} (lapsed : ticket ∈ account.lapsed)
    (found_stack : yard.members[other]? = some stack) (kind : UnitKind) (line : Option UInt32) :
    ¬∃ unit later, stack.close ticket.handle kind line = .ok (unit, later) := by
  obtain ⟨bound, -⟩ := List.getElem?_eq_some_iff.mp found_stack
  have bound : other < ledger.length := audited.length ▸ bound
  have found' := List.getElem?_eq_getElem bound
  intro closes
  have audited' := audited.accounts other stack _ found_stack found'
  obtain ⟨name, outer, standing⟩ := (audited'.close_iff ticket.handle kind line).mp closes
  -- the handle was issued by the stack that takes it, so the unit that is gone was one of its own
  have issued' : (⟨ticket.handle, kind, name⟩ : Ticket) ∈ ledger[other].issued := by
    rw [Account.issued, standing]
    exact List.mem_cons_self ..
  have here := audited.issuer found_stack found' found issued' (List.mem_append_right _ lapsed) rfl
  subst here
  cases found'.symm.trans found
  exact audited'.refuses_lapsed lapsed kind line closes

/-- Handles keep to the order of the units. Whatever was requested of however many stacks, in
whatever order and with whatever handles: a stack closes a unit exactly if it is given the
handle that it issued for the innermost one, and the right kind; if it refuses, nothing
changes; no two units ever get the same number from one stack, and no two stacks issue the same
handle; the handle of a unit that is gone is refused by every stack from then on; and units and
regions together stay within the limit. -/
theorem handles_keep_order (requests : List (Request α)) (place : Nat) (stack : UnitStack α)
    (found : (after requests).1.members[place]? = some stack) :
    ∃ account, (after requests).2[place]? = some account ∧ account.standing = stack.tickets ∧
      (∀ handle kind line, (∃ unit later, stack.close handle kind line = .ok (unit, later)) ↔
        ∃ name outer, account.standing = ⟨handle, kind, name⟩ :: outer) ∧
      (∀ handle kind line error, stack.close handle kind line = .error error →
        (after (requests ++ [.close place handle kind line])) = after requests) ∧
      (account.issued.map (·.handle.id)).Nodup ∧
      (∀ (other : Nat) account', (after requests).2[other]? = some account' →
        ∀ ticket ∈ account.issued, ∀ ticket' ∈ account'.issued,
          ticket'.handle = ticket.handle → other = place) ∧
      (∀ ticket ∈ account.lapsed, ∀ more (other : Nat) stack',
        (after (requests ++ more)).1.members[other]? = some stack' →
        ∀ kind line, ¬∃ unit later, stack'.close ticket.handle kind line = .ok (unit, later)) ∧
      stack.size + stack.nesting ≤ account.limit := by
  have audited := audited_after requests
  obtain ⟨bound, -⟩ := List.getElem?_eq_some_iff.mp found
  have found_account :=
    List.getElem?_eq_getElem (audited.length ▸ bound : place < (after requests).2.length)
  have audited_stack := audited.accounts place stack _ found found_account
  refine ⟨_, found_account, audited_stack.standing, audited_stack.close_iff, ?_, audited_stack.distinct, ?_, ?_,
    audited_stack.within⟩
  · intro handle kind line error refused
    rw [after_append, List.foldl_cons, List.foldl_nil, noted, perform, ask, found]
    simp only [refused]
    rfl
  · intro other account' found' ticket issued ticket' issued' same
    exact audited.issuer found found_account found' issued issued' same
  · intro ticket lapsed more other stack' found_stack kind line
    obtain ⟨account', found', kept⟩ := extends_after requests more place _ found_account
    exact (audited_after (requests ++ more)).refuses_lapsed found' (kept lapsed) found_stack
      kind line

/-- Two stacks with units inside one another, some closed in order, some not, some discarded. -/
def entangled : List (Request Unit) :=
  [.create 4, .create 2, .open 0 .script "main" (), .open 1 .script "main" (),
    .open 0 .method "each" (), .enter 0, .open 0 .closure "block" (), .close 0 ⟨1, 2⟩ .method none,
    .close 0 ⟨2, 1⟩ .script none, .truncate 0 1, .exit 0, .open 0 .closure "again" (),
    .close 0 ⟨1, 2⟩ .method none]

theorem entangled_keep_order :
    ∃ stack, (after entangled).1.members[0]? = some stack ∧
      (∀ handle kind line, (∃ unit later, stack.close handle kind line = .ok (unit, later)) ↔
        handle = ⟨1, 4⟩ ∧ kind = .closure) ∧
      ∀ more (other : Nat) stack', (after (entangled ++ more)).1.members[other]? = some stack' →
        ∀ kind line, ¬∃ unit later, stack'.close ⟨1, 2⟩ kind line = .ok (unit, later) := by
  obtain ⟨account, found, -, closes, -, -, -, lapsed, -⟩ := handles_keep_order entangled 0 _ rfl
  cases found
  refine ⟨_, rfl, fun handle kind line => (closes handle kind line).trans ?_, ?_⟩
  · constructor
    · rintro ⟨name, outer, standing⟩
      cases standing
      exact ⟨rfl, rfl⟩
    · rintro ⟨rfl, rfl⟩
      exact ⟨_, _, rfl⟩
  · intro more other stack' found
    exact lapsed ⟨⟨1, 2⟩, .method, "each"⟩ (by decide) more other stack' found

end Yard

end BlockScript
