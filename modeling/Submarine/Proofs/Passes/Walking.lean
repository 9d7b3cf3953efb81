import Submarine.Proofs.Passes.Stepping

namespace Submarine

variable {k : Kind} {α β : Type} {root : Root}

abbrev Exchange := (r : Request) × r.Answer

namespace Exchange

def get (ns name : String) (found : Except ApiError (Object k)) : Exchange :=
  ⟨.get k ns name, found⟩

def create (o : Object k) (answer : Except ApiError (Object k)) : Exchange :=
  ⟨.create k o, answer⟩

def update (o : Object k) (answer : Except ApiError (Object k)) : Exchange :=
  ⟨.update k o, answer⟩

def updateStatus (o : Object k) (answer : Except ApiError (Object k)) : Exchange :=
  ⟨.updateStatus k o, answer⟩

def isCall (x : Exchange) : Bool :=
  match x.1 with
  | .get .. | .create .. | .update .. | .updateStatus .. => true
  | .cachedRoot .. | .publish _ | .now => false

def read? (x : Exchange) : Option (Kind × String × String) :=
  match x.1 with
  | .get k ns name => some (k, ns, name)
  | .cachedRoot .. | .create .. | .update .. | .updateStatus .. | .publish _ | .now => none

def isStatusWrite (x : Exchange) : Bool :=
  match x.1 with
  | .updateStatus .. => true
  | .cachedRoot .. | .get .. | .create .. | .update .. | .publish _ | .now => false

end Exchange

def callsOf (asked : List Exchange) : List Exchange := asked.filter Exchange.isCall

theorem callsOf_append (asked later : List Exchange) :
    callsOf (asked ++ later) = callsOf asked ++ callsOf later :=
  List.filter_append ..

namespace Pass.Trace

variable {asked : List Exchange}

theorem ask_cases {r : Request} {next : r.Answer → Pass α} {result : Except Failure α}
    (h : Trace (.ask r next) asked result) :
    ∃ answer later, asked = ⟨r, answer⟩ :: later ∧ Trace (next answer) later result := by
  cases h with
  | ask answer rest => exact ⟨answer, _, rfl, rest⟩

/-- The second part of a sequence is begun only after the first one has ended well. -/
theorem bind_cases {p : Pass α} {f : α → Pass β} {result : Except Failure β}
    (h : Trace (p.bind f) asked result) :
    (∃ a first later, asked = first ++ later ∧ Trace p first (.ok a) ∧
        Trace (f a) later result) ∨
      ∃ e, Trace p asked (.error e) ∧ result = .error e := by
  induction p generalizing asked with
  | done a => exact .inl ⟨a, [], asked, rfl, .done a, h⟩
  | fail e =>
    cases h
    exact .inr ⟨e, .fail e, rfl⟩
  | ask r next ih =>
    obtain ⟨answer, rest, rfl, hrest⟩ := ask_cases h
    rcases ih answer hrest with ⟨a, first, later, rfl, hfirst, hlater⟩ | ⟨e, hfirst, rfl⟩
    · exact .inl ⟨a, _ :: first, later, rfl, .ask answer hfirst, hlater⟩
    · exact .inr ⟨e, .ask answer hfirst, rfl⟩

end Pass.Trace

/-- How a child is visited: the calls that are made for it, and what comes of them. -/
inductive Visit (root : Root) (child : Child k) :
    List Exchange → Except Failure (Object k) → Prop where
  | homeless (home : root.metadata.ns = none) :
      Visit root child [] (.error SpecFault.noNamespace.toFailure)
  | unread {ns : String} (home : root.metadata.ns = some ns) (e : ApiError)
      (there : e.isNotFound = false) :
      Visit root child [.get ns child.name (.error e : Except ApiError (Object k))]
        (.error (.cluster e))
  | unowned {ns : String} (home : root.metadata.ns = some ns) (what : String)
      (nameless : root.controllerReference? = none) :
      Visit root child [.get ns child.name (.error (.notFound what) : Except ApiError (Object k))]
        (.error (SpecFault.noIdentity Kind.submarine.name (root.metadata.name.getD "")).toFailure)
  | created {ns : String} (home : root.metadata.ns = some ns) (what : String) (o : Object k)
      (r : OwnerReference) (place : o.place = .ok ⟨ns, child.name⟩)
      (owner : root.controllerReference? = some r)
      (owned : (o.metadata.ownerReferences.getD []).filter (·.isController) = [r])
      (content : o.content = (child.build root).content) (answer : Except ApiError (Object k)) :
      Visit root child
        [.get ns child.name (.error (.notFound what) : Except ApiError (Object k)),
          .create o answer]
        (answer.mapError .cluster)
  | foreign {ns : String} (home : root.metadata.ns = some ns) (live : Object k)
      (controlled : live.isControlledBy root = false) :
      Visit root child [.get ns child.name (.ok live)]
        (.error (.resourceConflict k.name child.name))
  | inOrder {ns : String} (home : root.metadata.ns = some ns) (live : Object k)
      (controlled : live.isControlledBy root) (agrees : live.agreesWith (child.build root)) :
      Visit root child [.get ns child.name (.ok live)] (.ok live)
  | updated {ns : String} (home : root.metadata.ns = some ns) (live o : Object k)
      (controlled : live.isControlledBy root)
      (drifted : live.agreesWith (child.build root) = false)
      (metadata : o.metadata = live.metadata) (content : o.content = (child.build root).content)
      (answer : Except ApiError (Object k)) :
      Visit root child [.get ns child.name (.ok live), .update o answer]
        (answer.mapError .cluster)

theorem Object.isSome_controllerReference? {o : Object k} (hname : o.metadata.name.isSome)
    (huid : o.metadata.uid.isSome) : o.controllerReference?.isSome := by
  obtain ⟨name, hname⟩ := Option.isSome_iff_exists.1 hname
  obtain ⟨uid, huid⟩ := Option.isSome_iff_exists.1 huid
  simp [controllerReference?, hname, huid]

theorem Child.controllers_newborn {child : Child k} {ns : String} {o : Object k}
    (h : child.newborn root ns = .ok o) :
    ∃ r, root.controllerReference? = some r ∧
      (o.metadata.ownerReferences.getD []).filter (·.isController) = [r] := by
  unfold newborn Object.setOwner at h
  split at h
  · next r hr =>
    obtain rfl := Except.ok.inj h
    refine ⟨r, hr, ?_⟩
    obtain ⟨name, -, hr⟩ := Option.bind_eq_some_iff.1 hr
    obtain ⟨uid, -, hr⟩ := Option.bind_eq_some_iff.1 hr
    obtain rfl := Option.some.inj hr
    simp [Metadata.withController, List.filter_append, List.filter_filter,
      OwnerReference.isController]
  · contradiction

theorem Child.newborn_eq_error {child : Child k} {ns : String} {fault : SpecFault}
    (h : child.newborn root ns = .error fault) :
    root.controllerReference? = none ∧
      fault = .noIdentity Kind.submarine.name (root.metadata.name.getD "") := by
  unfold newborn Object.setOwner at h
  split at h
  · contradiction
  · next hnone => exact ⟨hnone, (Except.error.inj h).symm⟩

theorem Visit.of_trace {child : Child k} {asked : List Exchange}
    {result : Except Failure (Object k)} (h : Pass.Trace (converge root child) asked result) :
    Visit root child (callsOf asked) result := by
  unfold converge at h
  split at h
  · next hns =>
    cases h
    exact .homeless hns
  · next ns hns =>
    obtain ⟨found, rest, rfl, hrest⟩ := h.ask_cases
    clear h
    rcases (found : Except ApiError (Object k)) with e | live
    · cases e with
      | notFound what =>
        dsimp only at hrest
        split at hrest
        · next fault hnewborn =>
          obtain ⟨hnone, rfl⟩ := Child.newborn_eq_error hnewborn
          cases hrest
          exact .unowned hns what hnone
        · next newborn hnewborn =>
          obtain ⟨hplace, -, hcontent⟩ := Child.newborn_spec hnewborn
          obtain ⟨r, hr, howned⟩ := Child.controllers_newborn hnewborn
          obtain ⟨answer, last, rfl, hlast⟩ := hrest.ask_cases
          clear hrest
          have hvisit := created hns what newborn r hplace hr howned hcontent answer
          rcases (answer : Except ApiError (Object k)) with e | stored <;> cases hlast <;>
            exact hvisit
      | _ =>
        cases hrest
        exact .unread hns _ (by rfl)
    · dsimp only at hrest
      split at hrest
      · next hcontrolled =>
        split at hrest
        · next hagrees =>
          cases hrest
          exact .inOrder hns live hcontrolled hagrees
        · next hdrifted =>
          obtain ⟨answer, last, rfl, hlast⟩ := hrest.ask_cases
          clear hrest
          have hvisit := updated hns live (child.renewed root live) hcontrolled
            (Bool.eq_false_iff.2 hdrifted) rfl rfl answer
          rcases (answer : Except ApiError (Object k)) with e | stored <;> cases hlast <;>
            exact hvisit
      · next hforeign =>
        obtain ⟨_, last, rfl, hlast⟩ := hrest.ask_cases
        cases hlast
        exact .foreign hns live (Bool.eq_false_iff.2 hforeign)

namespace Visit

variable {child : Child k} {calls : List Exchange} {result : Except Failure (Object k)}

theorem isIdentified {o : Object k} (h : Visit root child calls (.ok o)) :
    root.metadata.ns.isSome ∧ root.controllerReference?.isSome := by
  have hcontrolled : ∀ live : Object k, live.isControlledBy root →
      root.controllerReference?.isSome := by
    intro live hlive
    obtain ⟨hname, huid⟩ := Object.isSome_of_isControlledBy hlive
    exact Object.isSome_controllerReference? hname huid
  generalize hresult : Except.ok o = result at h
  cases h with
  | homeless | unread | unowned | foreign => contradiction
  | created home what o r place owner => exact ⟨by simp [home], by simp [owner]⟩
  | inOrder home live controlled => exact ⟨by simp [home], hcontrolled live controlled⟩
  | updated home live o controlled => exact ⟨by simp [home], hcontrolled live controlled⟩

/-- It fails for good only where the root cannot own what is to be created. -/
theorem of_terminal {f : Failure} (h : Visit root child calls (.error f))
    (hterminal : f.severity = .terminal) :
    (root.metadata.ns = none ∨ root.controllerReference? = none) ∧
      ∀ x ∈ calls, x.1.isWrite = false := by
  generalize hresult : Except.error f = result at h
  cases h with
  | homeless home => exact ⟨.inl home, by simp⟩
  | unowned home what nameless => exact ⟨.inr nameless, by simp [Exchange.get, Request.isWrite]⟩
  | inOrder => contradiction
  | unread | foreign =>
    obtain rfl := Except.error.inj hresult
    contradiction
  | created home what o r place owner owned content answer
  | updated home live o controlled drifted metadata content answer =>
    rcases answer with e | stored
    · cases hresult
      contradiction
    · contradiction

theorem reads (h : Visit root child calls result) :
    calls.filterMap Exchange.read? <+: [(k, root.metadata.ns.getD "", child.name)] := by
  cases h <;> simp [Exchange.read?, Exchange.get, Exchange.create, Exchange.update, *]

theorem reads_of_ok {o : Object k} (h : Visit root child calls (.ok o)) :
    calls.filterMap Exchange.read? = [(k, root.metadata.ns.getD "", child.name)] := by
  generalize hresult : Except.ok o = result at h
  cases h <;> first
    | contradiction
    | simp [Exchange.read?, Exchange.get, Exchange.create, Exchange.update, *]

theorem isStatusWrite (h : Visit root child calls result) {x : Exchange} (hx : x ∈ calls) :
    x.isStatusWrite = false := by
  cases h <;> simp only [List.mem_cons, List.not_mem_nil, or_false] at hx <;>
    first
    | contradiction
    | rcases hx with rfl | rfl <;> rfl

end Visit

/-- How children are visited in their order. The first visit that fails is the last one. -/
inductive Walk (root : Root) :
    List AnyChild → List Exchange → Except Failure (List Settlement) → Prop where
  | arrived : Walk root [] [] (.ok [])
  | stops {c : AnyChild} {todo : List AnyChild} {calls : List Exchange} {f : Failure}
      (visit : Visit root c.child calls (.error f)) : Walk root (c :: todo) calls (.error f)
  | goesOn {c : AnyChild} {todo : List AnyChild} {calls later : List Exchange} {o : Object c.kind}
      {result : Except Failure (List Settlement)} (visit : Visit root c.child calls (.ok o))
      (rest : Walk root todo later result) :
      Walk root (c :: todo) (calls ++ later) (result.map (⟨c, o⟩ :: ·))

namespace Walk

variable {now todo : List AnyChild} {calls later : List Exchange} {settled : List Settlement}
  {result : Except Failure (List Settlement)} {f : Failure}

theorem single {child : Child k} {o : Object k} (h : Visit root child calls (.ok o)) :
    Walk root [⟨k, child⟩] calls (.ok [⟨⟨k, child⟩, o⟩]) := by
  have hwalk := goesOn (c := ⟨k, child⟩) h arrived
  rwa [List.append_nil] at hwalk

theorem append (h : Walk root now calls (.ok settled)) (hlater : Walk root todo later result) :
    Walk root (now ++ todo) (calls ++ later) (result.map (settled ++ ·)) := by
  induction now generalizing calls settled with
  | nil =>
    cases h
    cases result <;> exact hlater
  | cons c now ih =>
    generalize houtcome : Except.ok settled = outcome at h
    cases h with
    | stops => contradiction
    | @goesOn _ _ calls rest o outcome visit hrest =>
      rcases outcome with e | settled
      · contradiction
      · obtain rfl := Except.ok.inj houtcome
        rw [List.append_assoc]
        have hwalk := goesOn visit (ih hrest)
        cases result <;> exact hwalk

theorem append_of_error (h : Walk root now calls (.error f)) (todo : List AnyChild) :
    Walk root (now ++ todo) calls (.error f) := by
  induction now generalizing calls with
  | nil => cases h
  | cons c now ih =>
    generalize houtcome : Except.error f = outcome at h
    cases h with
    | stops visit =>
      obtain rfl := Except.error.inj houtcome
      exact stops visit
    | @goesOn _ _ calls rest o outcome visit hrest =>
      rcases outcome with e | settled
      · obtain rfl := Except.error.inj houtcome
        exact goesOn visit (ih hrest)
      · contradiction

/-- A child that has been visited needs an owner, so the first visit fails for good or none. -/
theorem of_terminal (h : Walk root todo calls (.error f)) (hterminal : f.severity = .terminal) :
    (root.metadata.ns = none ∨ root.controllerReference? = none) ∧
      ∀ x ∈ calls, x.1.isWrite = false := by
  induction todo generalizing calls with
  | nil => cases h
  | cons c todo ih =>
    generalize houtcome : Except.error f = outcome at h
    cases h with
    | stops visit =>
      obtain rfl := Except.error.inj houtcome
      exact visit.of_terminal hterminal
    | @goesOn _ _ calls rest o outcome visit hrest =>
      rcases outcome with e | settled
      · obtain rfl := Except.error.inj houtcome
        obtain ⟨hns, howner⟩ := visit.isIdentified
        rcases (ih hrest).1 with hnone | hnone
        · simp [hnone] at hns
        · simp [hnone] at howner
      · contradiction

theorem reads (h : Walk root todo calls result) :
    calls.filterMap Exchange.read? <+:
      todo.map fun c ↦ (c.kind, root.metadata.ns.getD "", c.child.name) := by
  induction h with
  | arrived => exact List.prefix_rfl
  | stops visit => exact visit.reads.trans (by simp)
  | goesOn visit rest ih =>
    rw [List.filterMap_append, visit.reads_of_ok]
    exact List.cons_prefix_cons.2 ⟨rfl, ih⟩

theorem isStatusWrite (h : Walk root todo calls result) {x : Exchange} (hx : x ∈ calls) :
    x.isStatusWrite = false := by
  induction h with
  | arrived => contradiction
  | stops visit => exact visit.isStatusWrite hx
  | goesOn visit rest ih => exact (List.mem_append.1 hx).elim visit.isStatusWrite ih

theorem countP_isStatusWrite (h : Walk root todo calls result) :
    calls.countP Exchange.isStatusWrite = 0 :=
  List.countP_eq_zero.2 fun x hx ↦ by simp [h.isStatusWrite hx]

end Walk

def Pass.Walks (root : Root) (todo : List AnyChild) (P : List Settlement → α → Prop)
    (p : Pass α) : Prop :=
  ∀ asked result, p.Trace asked result →
    (∃ f, result = .error f ∧ Walk root todo (callsOf asked) (.error f)) ∨
      ∃ a settled, result = .ok a ∧ Walk root todo (callsOf asked) (.ok settled) ∧ P settled a

namespace Pass.Walks

variable {now later : List AnyChild} {P : List Settlement → α → Prop}
  {Q : List Settlement → β → Prop}

theorem mono {P' : List Settlement → α → Prop} {p : Pass α} (h : p.Walks root now P)
    (hP : ∀ settled a, P settled a → P' settled a) : p.Walks root now P' := by
  intro asked result htrace
  rcases h asked result htrace with hfails | ⟨a, settled, hresult, hwalk, ha⟩
  · exact .inl hfails
  · exact .inr ⟨a, settled, hresult, hwalk, hP settled a ha⟩

theorem done {a : α} (h : P [] a) : (Pass.done a).Walks root [] P := by
  intro asked result htrace
  cases htrace
  exact .inr ⟨a, [], rfl, .arrived, h⟩

theorem bind {p : Pass α} {f : α → Pass β} (hp : p.Walks root now P)
    (hf : ∀ settled a, P settled a →
      (f a).Walks root later fun more b ↦ Q (settled ++ more) b) :
    (p.bind f).Walks root (now ++ later) Q := by
  intro asked result htrace
  rcases htrace.bind_cases with ⟨a, first, last, rfl, hfirst, hlast⟩ | ⟨e, hfirst, rfl⟩
  · rcases hp first (.ok a) hfirst with ⟨f, hcontra, -⟩ | ⟨b, settled, hok, hwalk, hb⟩
    · contradiction
    · obtain rfl := Except.ok.inj hok
      rw [callsOf_append]
      rcases hf settled a hb last result hlast with
        ⟨f, rfl, hrest⟩ | ⟨b, more, rfl, hrest, hQ⟩
      · exact .inl ⟨f, rfl, hwalk.append hrest⟩
      · exact .inr ⟨b, settled ++ more, rfl, hwalk.append hrest, hQ⟩
  · rcases hp asked (.error e) hfirst with ⟨f, hf, hwalk⟩ | ⟨b, settled, hcontra, -⟩
    · obtain rfl := Except.error.inj hf
      exact .inl ⟨e, rfl, hwalk.append_of_error later⟩
    · contradiction

theorem converge (child : Child k) :
    (converge root child).Walks root [⟨k, child⟩] fun settled o ↦ settled = [⟨⟨k, child⟩, o⟩] := by
  intro asked result htrace
  have hvisit := Visit.of_trace htrace
  rcases result with f | o
  · exact .inl ⟨f, rfl, .stops hvisit⟩
  · exact .inr ⟨o, _, rfl, .single hvisit, rfl⟩

theorem convergeAll (todo : List AnyChild) :
    (convergeAll root todo).Walks root todo fun _ _ ↦ True := by
  induction todo with
  | nil => exact done trivial
  | cons c todo ih => exact (converge c.child).bind fun _ _ _ ↦ ih

theorem convergeServer : (convergeServer root).Walks root Plan.server
    fun settled server ↦ ⟨⟨_, Child.serverDeployment⟩, server⟩ ∈ settled := by
  refine (converge Child.serverAccount).bind fun account _ haccount ↦ ?_
  refine (converge Child.serverDeployment).bind fun deployment server hserver ↦ ?_
  refine (converge Child.serverService).bind fun service _ _ ↦ done ?_
  simp [hserver]

theorem convergeDatabaseSet : (convergeDatabaseSet root).Walks root
    [⟨_, Child.databaseSet⟩, ⟨_, Child.databaseService⟩]
    fun settled database ↦ ⟨⟨_, Child.databaseSet⟩, database⟩ ∈ settled := by
  refine (converge Child.databaseSet).bind fun set database hdatabase ↦ ?_
  refine (converge Child.databaseService).bind fun service _ _ ↦ done ?_
  simp [hdatabase]

theorem convergeDatabase : (convergeDatabase root).Walks root (Plan.database root)
    fun settled database ↦ ⟨⟨_, Child.databaseSet⟩, database⟩ ∈ settled := by
  rw [convergeDatabase_eq, Plan.database, List.append_assoc]
  refine (converge Child.databaseClaim).bind fun claim _ _ ↦ ?_
  split
  · refine (converge Child.databaseSecret).bind fun secret _ _ ↦ ?_
    exact convergeDatabaseSet.mono fun settled _ h ↦ by simp [h]
  · exact convergeDatabaseSet.mono fun settled _ h ↦ by simp [h]

end Pass.Walks

def convergePlan (root : Root) : Pass (Object .deployment × Object .statefulSet) :=
  (convergeServer root).bind fun server ↦ (convergeDatabase root).bind fun database ↦
    (convergeAll root Plan.access).bind fun _ ↦
      (convergeAll root (Plan.auxiliaries root)).bind fun _ ↦ .done (server, database)

def concludePass (root : Root) (server : Object .deployment) (database : Object .statefulSet) :
    Pass Unit :=
  (reportStatus root server database).bind fun _ ↦
    .ask (.publish (.synced root)) fun _ ↦ .done ()

theorem reconcileRoot_eq (root : Root) : reconcileRoot root =
    (convergePlan root).bind fun found ↦ concludePass root found.1 found.2 := by
  rw [reconcileRoot_eq_planned, convergePlan]
  simp only [Pass.bind_assoc]
  rfl

theorem Pass.Walks.convergePlan : (convergePlan root).Walks root (plan root) fun settled found ↦
    ⟨⟨_, Child.serverDeployment⟩, found.1⟩ ∈ settled ∧
      ⟨⟨_, Child.databaseSet⟩, found.2⟩ ∈ settled := by
  have hplan : plan root = Plan.server ++ (Plan.database root ++ (Plan.access ++
      (Plan.auxiliaries root ++ []))) := by
    simp [plan]
  rw [hplan]
  refine convergeServer.bind fun first server hserver ↦ ?_
  refine convergeDatabase.bind fun second database hdatabase ↦ ?_
  refine (convergeAll Plan.access).bind fun _ _ _ ↦ ?_
  refine (convergeAll (Plan.auxiliaries root)).bind fun _ _ _ ↦ done ?_
  simp [hserver, hdatabase]

/-- How a status is reported: it is written only where the root has another one. -/
inductive Report (root : Root) (status : InstallationStatus) :
    List Exchange → Except Failure Unit → Prop where
  | same (h : root.status = some status) : Report root status [] (.ok ())
  | new (h : root.status ≠ some status) (answer : Except ApiError Root) :
      Report root status [.updateStatus (k := .submarine) (root.withStatus status) answer]
        ((answer.mapError .cluster).map fun _ ↦ ())

/-- The walk through the plan ends the pass, or the report of the status does. -/
inductive FollowsPlan (root : Root) (asked : List Exchange) : Except Failure Unit → Prop where
  | cutShort {f : Failure} (walk : Walk root (plan root) (callsOf asked) (.error f)) :
      FollowsPlan root asked (.error f)
  | through {calls last : List Exchange} {settled : List Settlement} {server : Object .deployment}
      {database : Object .statefulSet} {now : Time.Instant} {result : Except Failure Unit}
      (calls_eq : callsOf asked = calls ++ last) (walk : Walk root (plan root) calls (.ok settled))
      (server_mem : ⟨⟨_, Child.serverDeployment⟩, server⟩ ∈ settled)
      (database_mem : ⟨⟨_, Child.databaseSet⟩, database⟩ ∈ settled)
      (clock : (⟨.now, now⟩ : Exchange) ∈ asked)
      (report : Report root (observedStatus root server database now) last result) :
      FollowsPlan root asked result

theorem Report.of_trace {server : Object .deployment} {database : Object .statefulSet}
    {asked : List Exchange} {result : Except Failure Unit}
    (h : Pass.Trace (reportStatus root server database) asked result) :
    ∃ now, (⟨.now, now⟩ : Exchange) ∈ asked ∧
      Report root (observedStatus root server database now) (callsOf asked) result := by
  obtain ⟨now, rest, rfl, hrest⟩ := h.ask_cases
  clear h
  refine ⟨now, List.mem_cons_self .., ?_⟩
  dsimp only at hrest
  split at hrest
  · next hsame =>
    cases hrest
    exact same hsame
  · next hdiffers =>
    obtain ⟨answer, last, rfl, hlast⟩ := hrest.ask_cases
    clear hrest
    have hreport := new hdiffers answer
    rcases (answer : Except ApiError Root) with e | stored <;> cases hlast <;> exact hreport

theorem Report.reads {status : InstallationStatus} {calls : List Exchange}
    {result : Except Failure Unit} (h : Report root status calls result) :
    calls.filterMap Exchange.read? = [] := by
  cases h <;> rfl

theorem Report.countP_isStatusWrite {status : InstallationStatus} {calls : List Exchange}
    {result : Except Failure Unit} (h : Report root status calls result) :
    calls.countP Exchange.isStatusWrite ≤ 1 := by
  cases h with
  | same => exact Nat.zero_le 1
  | new => exact Nat.le_refl 1

theorem FollowsPlan.of_trace {asked : List Exchange} {result : Except Failure Unit}
    (h : Pass.Trace (reconcileRoot root) asked result) : FollowsPlan root asked result := by
  rw [reconcileRoot_eq] at h
  rcases h.bind_cases with ⟨⟨server, database⟩, first, last, rfl, hfirst, hlast⟩ | ⟨f, hfirst, rfl⟩
  · rcases Pass.Walks.convergePlan first _ hfirst with
      ⟨f, hcontra, -⟩ | ⟨found, settled, hok, hwalk, hserver, hdatabase⟩
    · contradiction
    · obtain rfl := Except.ok.inj hok
      rcases hlast.bind_cases with ⟨_, middle, told, rfl, hmiddle, htold⟩ | ⟨f, hmiddle, rfl⟩
      · obtain ⟨now, hclock, hreport⟩ := Report.of_trace hmiddle
        obtain ⟨_, none_left, rfl, hend⟩ := htold.ask_cases
        cases hend
        refine .through ?_ hwalk hserver hdatabase ?_ hreport
        · simp [callsOf, Exchange.isCall]
        · simp [hclock]
      · obtain ⟨now, hclock, hreport⟩ := Report.of_trace hmiddle
        refine .through ?_ hwalk hserver hdatabase ?_ hreport
        · simp [callsOf_append]
        · simp [hclock]
  · rcases Pass.Walks.convergePlan asked _ hfirst with
      ⟨e, he, hwalk⟩ | ⟨found, settled, hcontra, -⟩
    · obtain rfl := Except.error.inj he
      exact .cutShort hwalk
    · contradiction

namespace FollowsPlan

variable {asked : List Exchange} {result : Except Failure Unit}

theorem reads (h : FollowsPlan root asked result) :
    (callsOf asked).filterMap Exchange.read? <+:
      (plan root).map fun c ↦ (c.kind, root.metadata.ns.getD "", c.child.name) := by
  cases h with
  | cutShort walk => exact walk.reads
  | through calls_eq walk _ _ _ report =>
    rw [calls_eq, List.filterMap_append, report.reads, List.append_nil]
    exact walk.reads

theorem countP_isStatusWrite (h : FollowsPlan root asked result) :
    (callsOf asked).countP Exchange.isStatusWrite ≤ 1 := by
  cases h with
  | cutShort walk =>
    rw [walk.countP_isStatusWrite]
    exact Nat.zero_le 1
  | through calls_eq walk _ _ _ report =>
    rw [calls_eq, List.countP_append, walk.countP_isStatusWrite, Nat.zero_add]
    exact report.countP_isStatusWrite

theorem of_terminal {f : Failure} (h : FollowsPlan root asked (.error f))
    (hterminal : f.severity = .terminal) :
    (root.metadata.ns = none ∨ root.controllerReference? = none) ∧
      ∀ x ∈ asked, x.1.isWrite = false := by
  have hcalls : (∀ x ∈ callsOf asked, x.1.isWrite = false) → ∀ x ∈ asked, x.1.isWrite = false := by
    rintro hcalls ⟨r, answer⟩ hx
    cases r with
    | cachedRoot | publish | now => rfl
    | get | create | update | updateStatus => exact hcalls _ (List.mem_filter.2 ⟨hx, rfl⟩)
  generalize hresult : Except.error f = result at h
  cases h with
  | cutShort walk =>
    obtain rfl := Except.error.inj hresult
    exact ⟨(walk.of_terminal hterminal).1, hcalls (walk.of_terminal hterminal).2⟩
  | through calls_eq walk _ _ _ report =>
    cases report with
    | same => contradiction
    | new differs answer =>
      rcases answer with e | stored
      · obtain rfl := Except.error.inj hresult
        contradiction
      · contradiction

end FollowsPlan

namespace Pass.Trace

variable {key ns name : String} {asked : List Exchange} {result : Except Failure Unit}

theorem afterLookup_of_reconcile {cached : Option Root}
    (h : Trace (reconcile key) (⟨.cachedRoot ns name, cached⟩ :: asked) result) :
    Trace (afterLookup cached) asked result := by
  rcases hsplit : splitKey? key with _ | ⟨ns', name'⟩
  · rw [reconcile_of_splitKey?_eq_none hsplit] at h
    cases h
  · rw [reconcile_of_splitKey? hsplit] at h
    cases h with
    | ask answer rest => exact rest

/-- The calls of a pass over a valid installation are a walk through its plan, whatever it is
answered; after the last child the status is written, if another one was observed. -/
theorem follows_plan
    (h : Trace (reconcile key) (⟨.cachedRoot ns name, (some root : Option Root)⟩ :: asked) result)
    (hvalid : root.spec.validate = .ok ()) (hstays : root.metadata.deletionTimestamp = none) :
    FollowsPlan root asked result ∧
      (callsOf asked).filterMap Exchange.read? <+:
        (plan root).map (fun c ↦ (c.kind, root.metadata.ns.getD "", c.child.name)) ∧
      (callsOf asked).countP Exchange.isStatusWrite ≤ 1 := by
  have htrace := h.afterLookup_of_reconcile
  rw [afterLookup_of_valid hvalid hstays] at htrace
  have hfollows := FollowsPlan.of_trace htrace
  exact ⟨hfollows, hfollows.reads, hfollows.countP_isStatusWrite⟩

end Pass.Trace

def Pass.consult (client : (r : Request) → r.Answer) : Pass α → List Exchange × Except Failure α
  | .done a => ([], .ok a)
  | .fail e => ([], .error e)
  | .ask r next =>
    let (asked, result) := (next (client r)).consult client
    (⟨r, client r⟩ :: asked, result)

theorem Pass.trace_consult (client : (r : Request) → r.Answer) (p : Pass α) :
    p.Trace (p.consult client).1 (p.consult client).2 := by
  induction p with
  | done a => exact .done a
  | fail e => exact .fail e
  | ask r next ih => exact .ask (client r) (ih (client r))

theorem Pass.trace_reconcile_consult {key ns name : String} (client : (r : Request) → r.Answer)
    (cached : Option Root) (h : splitKey? key = some (ns, name))
    (hcached : client (.cachedRoot ns name) = cached) :
    (reconcile key).Trace
      (⟨.cachedRoot ns name, cached⟩ :: ((afterLookup cached).consult client).1)
      ((afterLookup cached).consult client).2 := by
  rw [reconcile_of_splitKey? h]
  subst hcached
  exact .ask _ (trace_consult client _)

def contestedClient (root : Root) : (r : Request) → r.Answer
  | .cachedRoot .. => (some root : Option Root)
  | .get .deployment .. =>
    let wanted := { root with content := show InstallationContent from
      ⟨{ root.spec with server := { root.spec.server with replicas := 7 } }, none⟩ }
    (Child.serverDeployment.newborn wanted "default").mapError fun _ ↦ .transport "no owner"
  | .get k ns name => (.error (.notFound (k.name ++ " " ++ ns ++ "/" ++ name)) :
      Except ApiError (Object k))
  | .create _ o => (.ok o : Except ApiError (Object _))
  | .update _ _ | .updateStatus _ _ => (.error (.conflict "too late") : Except ApiError (Object _))
  | .publish _ => ()
  | .now => (⟨0, 0⟩ : Time.Instant)

def readingClient (root : Root) (c : Cluster) : (r : Request) → r.Answer
  | .cachedRoot .. => (some root : Option Root)
  | .get k ns name => match c.find? k ⟨ns, name⟩ with
    | some o => (.ok o : Except ApiError (Object k))
    | none => (.error (.notFound (k.name ++ " " ++ ns ++ "/" ++ name)) : Except ApiError (Object k))
  | .create _ o | .update _ o => (.ok o : Except ApiError (Object _))
  | .updateStatus _ _ => (.error (.conflict "too late") : Except ApiError (Object _))
  | .publish _ => ()
  | .now => (⟨0, 0⟩ : Time.Instant)

def driftedRun : List Exchange × Except Failure Unit :=
  (afterLookup (some Root.sampleWithBoard)).consult
    (readingClient Root.sampleWithBoard Cluster.drifted)

/-- The pass goes through the whole plan, creates what is missing, changes the one child that has
drifted, and is refused the status. -/
theorem Pass.Trace.follows_plan_of_drifted : ∃ asked,
    FollowsPlan Root.sampleWithBoard asked (.error (.cluster (.conflict "too late"))) ∧
      (callsOf asked).filterMap Exchange.read? <+:
        (plan Root.sampleWithBoard).map (fun c ↦ (c.kind, "default", c.child.name)) ∧
      (callsOf asked).countP Exchange.isStatusWrite ≤ 1 ∧
      ((callsOf asked).filterMap Exchange.read?).length = 14 ∧
      (.service, "default", "submarine-tensorboard-service") ∈
        (callsOf asked).filterMap Exchange.read? ∧ (callsOf asked).length = 29 := by
  have htrace := Pass.trace_reconcile_consult
    (readingClient Root.sampleWithBoard Cluster.drifted) (some Root.sampleWithBoard)
    (by rfl : splitKey? "default/demo" = some ("default", "demo")) rfl
  have hrun : driftedRun.2 = .error (.cluster (.conflict "too late")) ∧
      ((callsOf driftedRun.1).filterMap Exchange.read?).length = 14 ∧
      (.service, "default", "submarine-tensorboard-service") ∈
        (callsOf driftedRun.1).filterMap Exchange.read? ∧ (callsOf driftedRun.1).length = 29 := by
    decide +kernel
  obtain ⟨hresult, hread, hboard, hlength⟩ := hrun
  obtain ⟨hfollows, hreads, hstatus⟩ := follows_plan htrace (by decide +kernel) rfl
  exact ⟨_, hresult ▸ hfollows, hreads, hstatus, hread, hboard, hlength⟩

theorem Pass.Trace.of_terminal {cached : Option Root} {asked : List Exchange} {f : Failure}
    (h : Trace (afterLookup cached) asked (.error f)) (hterminal : f.severity = .terminal) :
    (∀ x ∈ asked, x.1.isWrite = false) ∧
      ∀ root, cached = some root → root.spec.validate = .ok () →
        root.metadata.ns = none ∨ root.controllerReference? = none := by
  cases cached with
  | none => cases h
  | some root =>
    unfold afterLookup at h
    dsimp only at h
    split at h
    · cases h
    · split at h
      · next fault hfault =>
        obtain ⟨_, rest, rfl, hrest⟩ := h.ask_cases
        cases hrest
        refine ⟨by simp [Request.isWrite], ?_⟩
        rintro _ ⟨⟩ hvalid
        simp [hvalid] at hfault
      · obtain ⟨howner, hasked⟩ := (FollowsPlan.of_trace h).of_terminal hterminal
        refine ⟨hasked, ?_⟩
        rintro _ ⟨⟩ -
        exact howner

/-- A pass that fails for good has written nothing. And over a valid installation with name,
namespace and uid no pass does so, whatever it is answered. -/
theorem Pass.Trace.unwritten_of_terminal {key : String} {asked : List Exchange} {f : Failure}
    (h : Trace (reconcile key) asked (.error f)) :
    (f.severity = .terminal → ∀ x ∈ asked, x.1.isWrite = false) ∧
      ∀ ns name later (root : Root),
        asked = ⟨.cachedRoot ns name, (some root : Option Root)⟩ :: later →
          root.metadata.name.isSome → root.metadata.ns.isSome → root.metadata.uid.isSome →
            root.spec.validate = .ok () → f.severity = .transient := by
  refine ⟨fun hterminal ↦ ?_, ?_⟩
  · rcases hsplit : splitKey? key with _ | ⟨ns, name⟩
    · rw [reconcile_of_splitKey?_eq_none hsplit] at h
      cases h
      simp
    · rw [reconcile_of_splitKey? hsplit] at h
      obtain ⟨cached, later, rfl, hlater⟩ := h.ask_cases
      simpa [Request.isWrite] using (of_terminal hlater hterminal).1
  · rintro ns name later root rfl hname hns huid hvalid
    cases hseverity : f.severity with
    | transient => rfl
    | terminal =>
      have howner := Object.isSome_controllerReference? hname huid
      rcases (of_terminal h.afterLookup_of_reconcile hseverity).2 root rfl hvalid with
        hnone | hnone
      · simp [hnone] at hns
      · simp [hnone] at howner

def unbornSample : Root :=
  { Root.sample with metadata := { Root.sample.metadata with uid := none } }

/-- Without a uid the sample cannot own the account that is missing; with its uid it can, and the
pass fails for now. -/
theorem Pass.Trace.unwritten_of_terminal_of_uid :
    (∃ asked f, Trace (reconcile "default/demo") asked (.error f) ∧ f.severity = .terminal ∧
        asked.length = 2 ∧ ∀ x ∈ asked, x.1.isWrite = false) ∧
      ∃ asked f, Trace (reconcile "default/demo") asked (.error f) ∧
        (∃ x ∈ asked, x.1.isWrite) ∧ f.severity = .transient := by
  have hsplit : splitKey? "default/demo" = some ("default", "demo") := rfl
  have hunborn := trace_reconcile_consult (contestedClient unbornSample) (some unbornSample)
    hsplit rfl
  have hsample := trace_reconcile_consult (contestedClient Root.sample) (some Root.sample) hsplit
    rfl
  have hterminal :
      ((afterLookup (some unbornSample)).consult (contestedClient unbornSample)).2 =
        .error (SpecFault.noIdentity "Submarine" "demo").toFailure := by
    decide +kernel
  have hlength :
      ((afterLookup (some unbornSample)).consult (contestedClient unbornSample)).1.length = 1 := by
    decide +kernel
  have htransient : ((afterLookup (some Root.sample)).consult (contestedClient Root.sample)).2 =
      .error (.cluster (.conflict "too late")) := by
    decide +kernel
  have hwrites : ((afterLookup (some Root.sample)).consult (contestedClient Root.sample)).1.any
      (·.1.isWrite) = true := by
    decide +kernel
  rw [hterminal] at hunborn
  rw [htransient] at hsample
  refine ⟨⟨_, _, hunborn, rfl, by simp [hlength], (unwritten_of_terminal hunborn).1 rfl⟩,
    _, _, hsample, ?_, ?_⟩
  · obtain ⟨x, hx, hwrite⟩ := List.any_eq_true.1 hwrites
    exact ⟨x, List.mem_cons_of_mem _ hx, hwrite⟩
  · exact (unwritten_of_terminal hsample).2 _ _ _ Root.sample rfl rfl rfl rfl (by decide +kernel)

end Submarine
