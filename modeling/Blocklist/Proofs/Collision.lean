import Blocklist.Proofs.Conduct
import Blocklist.Proofs.Hash
import Blocklist.Proofs.Race

set_option autoImplicit false

/-! # Collisions of hashed ids

Under the hashed scheme two domains may have an id in common. Exempting one of them then takes the
place of rules of the other, but not without a word: before the first change of the engine the
manager has warned of every exempted domain whose ids overlap, and nothing but the two ids of the
domain ever changes (`announced_of_exempting`).

A run falls into two parts. The first one reads the state and warns, and leaves the engine alone;
where it gets through, its warnings are known exactly (`run_warnOfCollisions`). The second one
is confined to the two ids (`Frame`), whatever fails. -/

namespace Blocklist.Override

variable {α β : Type}

/-! ## Answers -/

namespace Environment

/-- An engine call leaves one event, and the engine as it was or as the call makes it. -/
theorem onEngine_cases (kind : CallKind) (event : Event)
    (act : Engine → Except EngineError α × Engine) (env : Environment) :
    (onEngine kind event act env).2.events = event :: env.events
      ∧ ((onEngine kind event act env).2.engine = env.engine
        ∨ (onEngine kind event act env).2.engine = (act env.engine).2) := by
  unfold onEngine
  generalize env.schedule.next kind = next
  obtain ⟨fault, schedule⟩ := next
  cases fault with
  | unavailable | rejected | hang => exact ⟨rfl, Or.inl rfl⟩
  | none | outside => exact ⟨rfl, Or.inr rfl⟩

/-- A store call leaves no event and does nothing to the engine. -/
theorem onStore_cases (kind : CallKind) (act : Store → Except StoreError α × Store)
    (env : Environment) :
    (onStore kind act env).2.events = env.events
      ∧ (onStore kind act env).2.engine = env.engine := by
  unfold onStore
  generalize env.schedule.next kind = next
  obtain ⟨fault, schedule⟩ := next
  cases fault with
  | unavailable | rejected | hang | none | outside => exact ⟨rfl, rfl⟩

/-- The environment in which there were more warnings. -/
def warned (env : Environment) (warnings : List Warning) : Environment :=
  { env with events := (warnings.map Event.warning).reverse ++ env.events }

theorem warned_warned (env : Environment) (warnings more : List Warning) :
    (env.warned warnings).warned more = env.warned (warnings ++ more) := by
  simp [warned]

theorem run_warn (env : Environment) (w : Warning) : env.run (warn w) = (some (), env.warned [w]) :=
  run_ask (.warn w) env

/-- The snapshot that the next reading of the state finds: what the store holds, unless somebody
else is about to change it. -/
def found (env : Environment) (v : Versioned) : Versioned :=
  match (env.schedule.next .load).1 with
  | .outside change => changed change v
  | _ => v

end Environment

open Environment

/-- The call that reads the state finds what there is, if it gets through. -/
theorem answer_load {view : Store.View} {env : Environment} {v read : Versioned}
    (hholds : view.Holds env.store v)
    (h : (Environment.answer .load env).1 = some (.ok read)) :
    read = env.found v ∧ view.Holds (Environment.answer .load env).2.store read := by
  have hfound : env.found v = match (env.schedule.next .load).1 with
    | .outside change => changed change v
    | _ => v := rfl
  simp only [Environment.answer, Environment.onStore] at h ⊢
  rw [hfound]
  generalize env.schedule.next .load = next at h ⊢
  obtain ⟨fault, schedule⟩ := next
  cases fault with
  | unavailable | rejected | hang => cases h
  | none =>
    obtain ⟨hreply, hheld⟩ := view.load hholds
    cases hreply.symm.trans (Option.some.inj h)
    exact ⟨rfl, hheld⟩
  | outside change =>
    obtain ⟨hreply, hheld⟩ := view.load (view.holds_change hholds change)
    cases hreply.symm.trans (Option.some.inj h)
    exact ⟨rfl, hheld⟩

theorem run_load_eq_ok {view : Store.View} {env after : Environment} {v read : Versioned}
    (hholds : view.Holds env.store v) (h : env.run load.run = (some (.ok read), after)) :
    read = env.found v ∧ view.Holds after.store read
      ∧ after.events = env.events ∧ after.engine = env.engine := by
  obtain ⟨reply, mid, hask, hreply⟩ := exists_of_run_bind h
  have hanswer : Environment.answer .load env = (some reply, mid) :=
    (run_ask .load env).symm.trans hask
  obtain ⟨hevents, hengine⟩ := onStore_cases .load Store.load env
  have hmid : (Environment.onStore .load Store.load env).2 = mid := congrArg Prod.snd hanswer
  rw [hmid] at hevents hengine
  cases reply with
  | error e => cases hreply
  | ok told =>
    cases hreply
    obtain ⟨hread, hheld⟩ := answer_load hholds (congrArg Prod.fst hanswer)
    rw [hanswer] at hheld
    exact ⟨hread, hheld, hevents, hengine⟩

theorem run_liftM_warn (env : Environment) (w : Warning) :
    env.run (liftM (warn w) : Attempt Unit).run = (some (.ok ()), env.warned [w]) :=
  run_bind_of_eq (run_warn env w) _

/-- A loop that warns of some elements and does nothing else ends, and has warned of all of them. -/
theorem run_forIn_warned {γ : Type} {f : γ → PUnit → Attempt (ForInStep PUnit)} (p : γ → Prop)
    [DecidablePred p] (told : γ → Warning)
    (hstep : ∀ a (env : Environment), env.run (f a ⟨⟩).run
      = (some (.ok (.yield ⟨⟩)), if p a then env.warned [told a] else env))
    (items : List γ) (env : Environment) :
    env.run (forIn items ⟨⟩ f : Attempt PUnit).run
      = (some (.ok ⟨⟩), env.warned ((items.filter (p ·)).map told)) := by
  induction items generalizing env with
  | nil => rfl
  | cons a rest ih =>
    rw [List.forIn_cons, ExceptT.run_bind, run_bind_of_eq (hstep a env)]
    refine (ih _).trans ?_
    by_cases ha : p a
    · simp [ha, warned_warned]
    · simp [ha]

/-! ## Warnings -/

/-- What warns of ids that are not the domain's own. -/
def Warning.IsOverlap : Warning → Prop
  | .withinStaticRange .. | .collision .. => True
  | _ => False

/-- The warnings about the hashed ids of a domain: one if an id is among those of compiled rules,
and one for every other exempted domain whose hash is too close, in the order of the exemptions. -/
def overlapWarnings (config : Config) (exempted : List String) (domain : String) :
    List Warning :=
  let h := (domainHash domain).toNat
  (if (1 ≤ h ∧ h ≤ config.maxStaticRuleId.toNat) ∨ h + 1 ≤ config.maxStaticRuleId.toNat then
      [.withinStaticRange (.hashed domain) domain]
    else [])
  ++ (exempted.filter fun other => other ≠ domain ∧ hashDistance other domain ≤ 1).map
      (.collision domain)

theorem withinStaticRange_hashed_iff (domain : String) (maxStatic : UInt32) :
    (IdPair.hashed domain).withinStaticRange maxStatic = true
      ↔ (1 ≤ (domainHash domain).toNat ∧ (domainHash domain).toNat ≤ maxStatic.toNat)
        ∨ (domainHash domain).toNat + 1 ≤ maxStatic.toNat := by
  have hincoming : (IdPair.hashed domain).incoming.toNat = (domainHash domain).toNat := rfl
  have houtgoing := toNat_outgoing_hashed domain
  simp only [IdPair.withinStaticRange, IdPair.toList, List.any_cons, List.any_nil, Bool.or_false,
    Bool.or_eq_true, Bool.and_eq_true, decide_eq_true_eq, UInt32.le_iff_toNat_le, hincoming,
    houtgoing, UInt32.toNat_one]
  omega

/-- The warnings about other exempted domains. -/
def warnOfOthers (domain : String) (ids : IdPair) : Attempt Unit := do
  let state ← loadState
  for other in state.exemptedDomains do
    if other != domain && (IdPair.hashed other).overlaps ids then
      warn (.collision domain other)

theorem warnOfCollisions_eq (config : Config) (domain : String) (ids : IdPair) :
    warnOfCollisions config domain ids
      = if ids.withinStaticRange config.maxStaticRuleId then
          (do warn (.withinStaticRange ids domain); warnOfOthers domain ids)
        else warnOfOthers domain ids := rfl

/-- Where the others are warned of, they are all warned of. -/
theorem run_warnOfOthers {view : Store.View} {env after : Environment} {v : Versioned}
    {domain : String} (hholds : view.Holds env.store v)
    (h : env.run (warnOfOthers domain (.hashed domain)).run = (some (.ok ()), after)) :
    after.events = (env.warned (((env.found v).state.exemptedDomains.filter fun other =>
        other ≠ domain ∧ hashDistance other domain ≤ 1).map (.collision domain))).events
      ∧ after.engine = env.engine ∧ view.Holds after.store (env.found v) := by
  obtain ⟨state, between, hload, hloop⟩ := exists_of_run_attempt_bind h
  obtain ⟨read, _, hread, hstate⟩ := exists_of_run_attempt_bind hload
  cases hstate
  obtain ⟨rfl, hheld, hevents, hengine⟩ := run_load_eq_ok hholds hread
  obtain ⟨⟨⟩, last, hloop, hend⟩ := exists_of_run_attempt_bind hloop
  -- The loop has no way to fail, so it has been through the whole list.
  rw [run_forIn_warned (fun other => other ≠ domain ∧ hashDistance other domain ≤ 1)
    (.collision domain)] at hloop
  · cases hloop
    cases hend
    refine ⟨?_, hengine, hheld⟩
    show _ ++ between.events = _ ++ env.events
    rw [hevents]
  · intro other env
    have hcond : (other != domain && (IdPair.hashed other).overlaps (.hashed domain)) = true
        ↔ other ≠ domain ∧ hashDistance other domain ≤ 1 := by
      simp [overlaps_hashed_iff]
    by_cases hclose : other ≠ domain ∧ hashDistance other domain ≤ 1
    · rw [if_pos hclose, if_pos (hcond.2 hclose), ExceptT.run_bind,
        run_bind_of_eq (run_liftM_warn env _)]
      rfl
    · rw [if_neg hclose, if_neg (mt hcond.1 hclose)]
      rfl

/-- Where the ids of a domain are had, the manager has told of all overlaps and done nothing to the
engine. -/
theorem run_warnOfCollisions {view : Store.View} {config : Config} {env after : Environment}
    {v : Versioned} {domain : String} (hholds : view.Holds env.store v)
    (h : env.run (warnOfCollisions config domain (.hashed domain)).run = (some (.ok ()), after)) :
    after.events
        = (env.warned (overlapWarnings config (env.found v).state.exemptedDomains domain)).events
      ∧ after.engine = env.engine ∧ view.Holds after.store (env.found v) := by
  have hstatic := withinStaticRange_hashed_iff domain config.maxStaticRuleId
  rw [warnOfCollisions_eq] at h
  unfold overlapWarnings
  by_cases hwithin : (IdPair.hashed domain).withinStaticRange config.maxStaticRuleId = true
  · rw [if_pos hwithin] at h
    obtain ⟨⟨⟩, between, hwarn, hothers⟩ := exists_of_run_attempt_bind h
    cases (run_liftM_warn env _).symm.trans hwarn
    have hafter := @run_warnOfOthers view (env.warned _) after v domain hholds hothers
    simp only [if_pos (hstatic.1 hwithin)]
    rw [← warned_warned]
    exact hafter
  · rw [if_neg hwithin] at h
    simp only [if_neg (mt hstatic.2 hwithin)]
    exact run_warnOfOthers hholds h

/-- A call that reads the state or warns. -/
def Looks (_ : World) : Call → Prop
  | .load | .warn _ => True
  | _ => False

section

variable {regime : Regime} {config : Config} {domain : String} {ids : IdPair} {w : World}

theorem Looks.obeys_warnOfOthers : Obeys regime Looks (warnOfOthers domain ids).run w := by
  unfold warnOfOthers
  refine obeys_attempt_bind_of_forall ?_ fun state after => ?_
  · exact obeys_attempt_bind_of_forall (obeys_onStore (obeys_ask trivial)) fun _ _ => trivial
  refine obeys_attempt_bind_of_forall (obeys_attempt_forIn (fun other w => ?_) _ _)
    fun _ _ => trivial
  split
  · exact obeys_attempt_bind_of_forall (obeys_attempt_lift (obeys_ask trivial)) fun _ _ => trivial
  · trivial

theorem Looks.obeys_warnOfCollisions :
    Obeys regime Looks (warnOfCollisions config domain ids).run w := by
  rw [warnOfCollisions_eq]
  split
  · exact obeys_attempt_bind_of_forall (obeys_attempt_lift (obeys_ask trivial))
      fun _ _ => Looks.obeys_warnOfOthers
  · exact Looks.obeys_warnOfOthers

/-! ## The ids of the domain -/

/-- A call that, if it changes rules, does so at the given ids, and that warns of no overlap. -/
def Confined (ids : IdPair) (_ : World) : Call → Prop
  | .removeRules removed => ∀ id ∈ removed, id ∈ ids.toList
  | .addRules rules => ∀ rule ∈ rules, rule.id ∈ ids.toList
  | .warn warning => ¬ warning.IsOverlap
  | .load | .commit .. | .clock => True
  | _ => False

namespace Confined

theorem obeys_loadState : Obeys regime (Confined ids) loadState.run w :=
  obeys_attempt_bind_of_forall (obeys_onStore (obeys_ask trivial)) fun _ _ => trivial

theorem obeys_update (change : PersistedState → PersistedState) :
    Obeys regime (Confined ids) (update change).run w := by
  unfold update
  refine obeys_attempt_bind_of_forall (obeys_onStore (obeys_ask trivial)) fun current _ => ?_
  refine obeys_attempt_bind_of_forall (obeys_attempt_lift (obeys_ask trivial)) fun now _ => ?_
  exact obeys_onStore (obeys_ask trivial)

theorem obeys_installPair :
    Obeys regime (Confined ids) (installPair config domain ids none) w := by
  unfold installPair
  refine obeys_bind_of_forall (obeys_ask ?_) fun removed _ => ?_
  · intro id hid
    simpa using hid
  match removed with
  | .error e => trivial
  | .ok () =>
    refine obeys_bind_of_forall (obeys_ask fun rule hrule => ?_) fun added _ => ?_
    · exact id_mem_of_mem_pairRules hrule
    match added with
    | .error e => trivial
    | .ok () => trivial

theorem obeys_withdrawPair : Obeys regime (Confined ids) (withdrawPair domain ids) w := by
  unfold withdrawPair
  refine obeys_bind_of_forall (obeys_ask fun _ hid => hid) fun removed _ => ?_
  match removed with
  | .error e => exact obeys_ask nofun
  | .ok () => exact obeys_ask nofun

theorem obeys_dropExemption : Obeys regime (Confined ids) (dropExemption domain) w := by
  unfold dropExemption
  refine obeys_bind_of_forall (obeys_update _) fun dropped _ => ?_
  match dropped with
  | .error e => exact obeys_bind_of_forall (obeys_ask nofun) fun _ _ => obeys_ask nofun
  | .ok _ => exact obeys_ask nofun

theorem obeys_settleExempted (wasExempted : Bool) (installed : Except InstallFailure Unit) :
    Obeys regime (Confined ids) (settleExempted domain ids wasExempted installed).run w := by
  match installed with
  | .error (.untouched e) => trivial
  | .error (.pairRemoved e) =>
    cases wasExempted with
    | false => trivial
    | true =>
      exact obeys_attempt_bind_of_forall (obeys_attempt_lift obeys_dropExemption) fun _ _ => trivial
  | .ok () =>
    refine obeys_attempt_bind_of_forall (obeys_outcome (obeys_update _)) fun committed _ => ?_
    match committed, wasExempted with
    | .ok _, _ => trivial
    | .error e, true => trivial
    | .error e, false =>
      exact obeys_attempt_bind_of_forall (obeys_attempt_lift obeys_withdrawPair) fun _ _ => trivial

/-- An exemption that has its ids touches no others, whatever fails. -/
theorem obeys_exemptWith :
    Obeys regime (Confined ids) (exemptWith config domain ids none).run w := by
  unfold exemptWith
  refine obeys_attempt_bind_of_forall obeys_loadState fun state _ => ?_
  refine obeys_attempt_bind_of_forall (obeys_attempt_lift obeys_installPair) fun installed _ => ?_
  exact obeys_settleExempted _ installed

end Confined

end

/-- From one moment to a later one nothing has changed in the engine but at the given ids, and
nobody has warned of overlaps. -/
structure Frame (ids : IdPair) (env later : Environment) : Prop where
  rulesets : later.engine.rulesets = env.engine.rulesets
  rules : ∀ id ∉ ids.toList, later.engine.rule? id = env.engine.rule? id
  events : ∃ new, later.events = new ++ env.events
    ∧ ∀ warning : Warning, .warning warning ∈ new → ¬ warning.IsOverlap

namespace Frame

variable {ids : IdPair} {env between later : Environment}

theorem refl (ids : IdPair) (env : Environment) : Frame ids env env :=
  ⟨rfl, fun _ _ => rfl, [], rfl, nofun⟩

theorem trans (h : Frame ids env between) (h' : Frame ids between later) :
    Frame ids env later := by
  obtain ⟨new, hnew, hquiet⟩ := h.events
  obtain ⟨new', hnew', hquiet'⟩ := h'.events
  refine ⟨h'.rulesets.trans h.rulesets, fun id hid => (h'.rules id hid).trans (h.rules id hid),
    new' ++ new, by rw [hnew', hnew, List.append_assoc], fun warning hmem => ?_⟩
  rcases List.mem_append.1 hmem with hmem | hmem
  · exact hquiet' warning hmem
  · exact hquiet warning hmem

/-- An engine call with such an effect. -/
theorem of_onEngine {kind : CallKind} {event : Event}
    {act : Engine → Except EngineError α × Engine}
    (hevent : ∀ warning, event ≠ .warning warning)
    (hrulesets : (act env.engine).2.rulesets = env.engine.rulesets)
    (hrules : ∀ id ∉ ids.toList, (act env.engine).2.rule? id = env.engine.rule? id) :
    Frame ids env (Environment.onEngine kind event act env).2 := by
  obtain ⟨hevents, hengine⟩ := onEngine_cases kind event act env
  have hnew : ∃ new,
      (Environment.onEngine kind event act env).2.events = new ++ env.events
      ∧ ∀ warning : Warning, .warning warning ∈ new → ¬ warning.IsOverlap := by
    refine ⟨[event], hevents, fun warning hmem => ?_⟩
    exact absurd (List.mem_singleton.1 hmem).symm (hevent warning)
  rcases hengine with hsame | hdone
  · exact ⟨by rw [hsame], fun _ _ => by rw [hsame], hnew⟩
  · exact ⟨by rw [hdone, hrulesets], fun id hid => by rw [hdone, hrules id hid], hnew⟩

/-- What a confined call leaves alone, whatever it is answered. -/
theorem answer {w : World} {c : Call} (h : Confined ids w c) :
    Frame ids env (Environment.answer c env).2 := by
  have hstore {γ : Type} (kind : CallKind) (act : Store → Except StoreError γ × Store) :
      Frame ids env (Environment.onStore kind act env).2 := by
    obtain ⟨hevents, hengine⟩ := onStore_cases kind act env
    exact ⟨by rw [hengine], fun _ _ => by rw [hengine], [], hevents, nofun⟩
  cases c with
  | enableRuleset | disableRuleset | enabledRulesets => exact h.elim
  | addRules rules =>
    rcases env.engine.addSessionRules_cases rules with ⟨after, hadd, hcall⟩ | ⟨e, -, hcall⟩
    · refine of_onEngine (fun _ => nofun) ?_ fun id hid => ?_
      · rw [hcall]
        exact ((Engine.addRules_eq_ok_iff _ _ _).1 hadd).2.2
      · rw [hcall]
        refine Engine.rule?_of_not_mem_batch hadd fun hmem => ?_
        obtain ⟨rule, hrule, rfl⟩ := List.mem_map.1 hmem
        exact hid (h rule hrule)
    · exact of_onEngine (fun _ => nofun) (by rw [hcall]) fun _ _ => by rw [hcall]
  | removeRules removed =>
    refine of_onEngine (fun _ => nofun) rfl fun id hid => ?_
    rw [Engine.rule?_removeRules, if_neg fun hmem => hid (h id hmem)]
  | load => exact hstore ..
  | commit expected state => exact hstore ..
  | clock => exact refl ids env
  | warn warning =>
    refine ⟨rfl, fun _ _ => rfl, [.warning warning], rfl, fun other hmem => ?_⟩
    cases List.mem_singleton.1 hmem
    exact h

end Frame

/-! ## Exempting -/

/-- What holds of a moment of a run in which a domain is exempted, `env` being the start of the run
and `exempted` the domains that are exempted in the state that the run reads first. -/
structure Announced (config : Config) (exempted : List String) (domain : String)
    (env m : Environment) : Prop where
  rulesets : m.engine.rulesets = env.engine.rulesets
  /-- Only the two hashed ids of the domain are touched. -/
  rules : ∀ id, id ≠ domainHash domain → id ≠ domainHash domain + 1 →
    m.engine.rule? id = env.engine.rule? id
  /-- Where the engine has changed, the first thing that was seen are the warnings about overlaps,
  and there are no others. -/
  told : m.engine ≠ env.engine → ∃ later,
    m.events = later ++ ((overlapWarnings config exempted domain).map Event.warning).reverse
        ++ env.events
      ∧ ∀ warning : Warning, .warning warning ∈ later → ¬ warning.IsOverlap
  /-- Whose hashed ids have lost or changed a rule is among those that were warned of. -/
  named : ∀ other ∈ exempted, other ≠ domain → ∀ id ∈ (IdPair.hashed other).toList,
    m.engine.rule? id ≠ env.engine.rule? id → ∃ new,
      m.events = new ++ env.events ∧ .warning (.collision domain other) ∈ new

section

variable {view : Store.View} {config : Config} {domain : String} {env : Environment} {v : Versioned}

/-- As long as the engine is what it was, there is nothing to tell. -/
theorem Announced.of_engine_eq {exempted : List String} {m : Environment}
    (h : m.engine = env.engine) : Announced config exempted domain env m where
  rulesets := by rw [h]
  rules _ _ _ := by rw [h]
  told hne := absurd h hne
  named _ _ _ _ _ hne := absurd (by rw [h]) hne

/-- An exempted domain that shares an id is warned of. -/
theorem collision_mem_overlapWarnings {exempted : List String} {other : String} {id : UInt32}
    (hother : other ∈ exempted) (hne : other ≠ domain) (hid : id ∈ (IdPair.hashed other).toList)
    (hshared : id ∈ (IdPair.hashed domain).toList) :
    .collision domain other ∈ overlapWarnings config exempted domain := by
  have hclose : hashDistance other domain ≤ 1 :=
    (overlaps_hashed_iff other domain).1 (IdPair.overlaps_eq_true_iff.2 ⟨id, hid, hshared⟩)
  unfold overlapWarnings
  refine List.mem_append_right _ (List.mem_map_of_mem ?_)
  simpa [hother, hne] using hclose

/-- After the warnings, everything that is confined to the ids of the domain has been announced. -/
theorem Announced.of_frame {exempted : List String} {between m : Environment}
    (hengine : between.engine = env.engine)
    (hevents : between.events = (env.warned (overlapWarnings config exempted domain)).events)
    (h : Frame (.hashed domain) between m) : Announced config exempted domain env m := by
  obtain ⟨later, hlater, hquiet⟩ := h.events
  rw [hevents] at hlater
  have hrules : ∀ id ∉ (IdPair.hashed domain).toList,
      m.engine.rule? id = env.engine.rule? id := by
    intro id hid
    rw [h.rules id hid, hengine]
  refine ⟨by rw [h.rulesets, hengine], fun id hfirst hsecond => ?_, fun _ => ?_,
    fun other hother hne id hid hchanged => ?_⟩
  · refine hrules id fun hmem => ?_
    rcases IdPair.mem_toList.1 hmem with hincoming | houtgoing
    · exact hfirst hincoming
    · exact hsecond houtgoing
  · exact ⟨later, by rw [hlater, List.append_assoc]; rfl, hquiet⟩
  · have hshared : id ∈ (IdPair.hashed domain).toList := by
      by_contra hfree
      exact hchanged (hrules id hfree)
    have hmem : .collision domain other ∈ overlapWarnings config exempted domain :=
      collision_mem_overlapWarnings hother hne hid hshared
    refine ⟨later ++ ((overlapWarnings config exempted domain).map Event.warning).reverse,
      by rw [hlater, List.append_assoc]; rfl, ?_⟩
    exact List.mem_append_right _ (List.mem_reverse.2 (List.mem_map_of_mem hmem))

theorem idsForInstall_hashed (hhashed : config.idScheme = .hashed) :
    idsForInstall config domain = (do
      warnOfCollisions config domain (.hashed domain)
      return (.hashed domain, none)) := by
  unfold idsForInstall
  rw [hhashed]

/-- What is seen of the engine at every moment of an exemption has been announced. -/
theorem announced_of_exempt (hhashed : config.idScheme = .hashed)
    (hholds : view.Holds env.store v) :
    ∀ m ∈ env.moments (exempt config domain).run,
      Announced config (env.found v).state.exemptedDomains domain env m := by
  rw [exempt_eq, idsForInstall_hashed hhashed, bind_assoc]
  have hwild : ∀ schedule, Regime.wild.Admits schedule := Regime.admits_wild
  -- Either the run is still about to warn, or all the warnings are out.
  refine forall_moments_attempt_bind ?_ fun _ between hwarned => ?_
  · have hengine : ∀ m ∈ env.moments (warnOfCollisions config domain (.hashed domain)).run,
        m.engine = env.engine := by
      refine Obeys.forall_moments_of_answer (Looks.obeys_warnOfCollisions (w := ⟨_, v, []⟩))
        (fun before w c hlooks hbefore => ?_) ⟨rfl, hholds, hwild _⟩ rfl
      cases c with
      | load => exact (onStore_cases .load Store.load before).2.trans hbefore
      | warn _ => exact hbefore
      | _ => exact hlooks.elim
    exact fun m hm => .of_engine_eq (hengine m hm)
  · obtain ⟨hevents, hengine, hheld⟩ := run_warnOfCollisions hholds hwarned
    have hframe : ∀ m ∈ between.moments (exemptWith config domain (.hashed domain) none).run,
        Frame (.hashed domain) between m := by
      refine Obeys.forall_moments_of_answer (Confined.obeys_exemptWith (w := ⟨_, env.found v, []⟩))
        (fun before w c hconfined hbefore => ?_) ⟨rfl, hheld, hwild _⟩ (.refl _ _)
      exact hbefore.trans (.answer hconfined)
    exact fun m hm => .of_frame hengine hevents (hframe m hm)

end

section

-- Otherwise the elaborator tries to compute the name of an unknown input.
attribute [local irreducible] Manager.domainOf

/-- Under the hashed scheme nobody loses rules without a word. While a domain is exempted, only its
two hashed ids are touched, whatever fails and whoever interferes; and before the engine changes,
the manager has warned of ids among those of compiled rules and, in their order, of all other
exempted domains whose hashes are the domain's or next to it. So whoever loses a rule is named. -/
theorem announced_of_exempting {view : Store.View} {manager : Manager} {env : Environment}
    {v : Versioned} {input domain : String} (hhashed : manager.config.idScheme = .hashed)
    (hdomain : Manager.domainOf input = .ok domain) (hholds : view.Holds env.store v) :
    ∀ m ∈ env.moments (manager.setDomainBlocking input false),
      Announced manager.config (env.found v).state.exemptedDomains domain env m := by
  have htoggle : toggle manager.config domain false = exempt manager.config domain := rfl
  rw [setDomainBlocking_of_ok hdomain, htoggle]
  refine forall_moments_bind (announced_of_exempt hhashed hholds) fun result after hrun => ?_
  have hlast := announced_of_exempt hhashed hholds _
    (Environment.run_mem_moments (exempt manager.config domain).run env)
  rw [hrun] at hlast
  exact List.forall_mem_singleton.2 hlast

end

/-- An exempted domain with a rule at its second hashed id, and an engine that is about to refuse a
batch. -/
def neighbour : Environment where
  engine := {
    rulesets := .ofList [("ruleset_1", true)]
    sessionRules := (∅ : Std.ExtTreeMap UInt32 Rule).insert 2937300
      (.allowRequest 2937300 1000000 "a.io") }
  store := .memory ⟨⟨1, { PersistedState.initial with exemptedDomains := ["a.io"] }⟩⟩
  time := 0
  schedule := Schedule.faultless.set .addRules [.rejected]
  events := []

/-- A manager under the hashed scheme, with many compiled rules. -/
def hashedManager : Manager :=
  ⟨{ Config.standard with idScheme := .hashed, maxStaticRuleId := 3000000 }, .new 0⟩

/-- The exemption of another domain takes the rule and then fails, but has said so before. -/
theorem announced_of_exempting_neighbour :
    ∃ m ∈ neighbour.moments (hashedManager.setDomainBlocking "a.ip" false),
      neighbour.engine.rule? 2937300 ≠ none ∧ m.engine.rule? 2937300 = none
      ∧ ∃ later, m.events = later ++ [.warning (.collision "a.ip" "a.io"),
          .warning (.withinStaticRange ⟨2937300, 2937301⟩ "a.ip")] := by
  have hdomain : Manager.domainOf "a.ip" = .ok "a.ip" := rfl
  have hmoment :=
    Environment.run_mem_moments (hashedManager.setDomainBlocking "a.ip" false) neighbour
  have hrule : neighbour.engine.rule? 2937300 ≠ none := by decide +kernel
  have hgone : (neighbour.run (hashedManager.setDomainBlocking "a.ip" false)).2.engine.rule? 2937300
      = none := by
    decide +kernel
  have hannounced := @announced_of_exempting .memory hashedManager neighbour _ "a.ip" "a.ip" rfl
    hdomain rfl _ hmoment
  have hwarnings : overlapWarnings hashedManager.config ["a.io"] "a.ip"
      = [.withinStaticRange ⟨2937300, 2937301⟩ "a.ip", .collision "a.ip" "a.io"] := by
    decide +kernel
  obtain ⟨later, hlater, -⟩ := hannounced.told fun heq => hrule (heq ▸ hgone)
  refine ⟨_, hmoment, hrule, hgone, later, ?_⟩
  have hexempted : (neighbour.found ⟨1, { PersistedState.initial with
      exemptedDomains := ["a.io"] }⟩).state.exemptedDomains = ["a.io"] := rfl
  rw [hexempted, hwarnings] at hlater
  exact hlater.trans (List.append_nil _)

end Blocklist.Override
