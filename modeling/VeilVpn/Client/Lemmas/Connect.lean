import VeilVpn.Client.Lemmas.Vpn

namespace Client

/--
A connection attempt for which `steps` are registered.
-/
structure Underway (P : Host → Prop) (steps : List CleanupStep) (s : System) : Prop where
  ctx : s.ctx = none
  cleanup : s.cleanup = { steps, armed := true }
  log : s.log = steps.map .registered
  host : P s.host

structure Undone (R : Host → Prop) (s : System) : Prop where
  ctx : s.ctx = none
  armed : s.cleanup.armed = false
  log : ∃ steps : List CleanupStep, s.log = steps.map .registered ++ steps.reverse.map .executed
  host : R s.host

section Cleanup

variable {p : Platform} {env : Env} {P Q R : Host → Prop} {steps : List CleanupStep} {s : System}
  {α : Type}

theorem Underway.run (hs : Underway P steps s)
    (hR : ∀ h, P h → R (steps.reverse.foldl (CleanupStep.execute p env) h))
    : Undone R (Cleanup.run p env s) := by
  have harmed : s.cleanup.armed = true := by rw [hs.cleanup]
  have hsteps : s.cleanup.steps = steps := by rw [hs.cleanup]
  unfold Cleanup.run
  rw [if_pos harmed]
  refine ⟨hs.ctx, rfl, ⟨steps, ?_⟩, ?_⟩
  . rw [hs.log, hsteps]
  . rw [hsteps]
    exact hR s.host hs.host

theorem Underway.drop (hs : Underway P steps s)
    (hR : ∀ h, P h → R (steps.reverse.foldl (CleanupStep.execute p env) h))
    : Undone R (Cleanup.drop p env s) := by
  unfold Cleanup.drop
  rw [if_pos (by rw [hs.cleanup])]
  exact hs.run hR

theorem drop_of_disarmed (hs : s.cleanup.armed = false) : Cleanup.drop p env s = s := by
  unfold Cleanup.drop
  rw [hs, if_neg Bool.false_ne_true]

theorem Underway.push (hs : Underway P steps s) (step : CleanupStep)
    : Underway P (steps ++ [step]) (Cleanup.push step s) where
  ctx := hs.ctx
  cleanup := by
    unfold Cleanup.push
    rw [hs.cleanup]
  log := by
    unfold Cleanup.push
    rw [hs.log, List.map_append, List.map_singleton]
  host := hs.host

def Aborted (k : Host) (R : Host → Prop) (e : Stop) (s : System) : Prop :=
  match e with
  | .failed _ => Undone R s
  | .cancelled => Underway (Over k) [.killBoringtun] s

theorem onHost_spec {x : Attempt Host String α} {Q : α → Host → Prop} {E : Host → Prop}
    (hx : x.Spec P Q (fun _ => E))
    : (onHost x).Spec (Underway P steps) (fun a => Underway (Q a) steps)
        (fun e s => ∃ msg, e = .failed msg ∧ Underway E steps s) := by
  intro s hs
  have hspec := hx s.host hs.host
  unfold onHost Attempt.zoom
  cases hrun : x s.host with
  | mk r h =>
    rw [hrun] at hspec
    cases r with
    | ok a => exact ⟨hs.ctx, hs.cleanup, hs.log, hspec⟩
    | error msg => exact ⟨msg, rfl, hs.ctx, hs.cleanup, hs.log, hspec⟩

theorem Underway.of_and {c : Prop} {x : Connect α} {Q : α → System → Prop} {E : Stop → System → Prop}
    (h : c → x.Spec (Underway P steps) Q E)
    : x.Spec (Underway (fun h => P h ∧ c) steps) Q E :=
  fun s hs => h hs.host.2 s ⟨hs.ctx, hs.cleanup, hs.log, hs.host.1⟩

theorem orFail_spec {P : System → Prop} (r : Except String α)
    : (orFail r).Spec P (fun a s => P s ∧ r = .ok a)
        (fun e s => ∃ msg, e = .failed msg ∧ P s ∧ r = .error msg) := by
  intro s hs
  cases r with
  | ok a => exact ⟨hs, rfl⟩
  | error msg => exact ⟨msg, rfl, hs, rfl⟩

theorem orFail_mapError_spec {P : System → Prop} (r : Except String α) (f : String → String)
    : (orFail (r.mapError f)).Spec P (fun a s => P s ∧ r = .ok a)
        (fun e s => ∃ msg, e = .failed msg ∧ P s ∧ ∀ a, r ≠ .ok a) := by
  apply (orFail_spec (r.mapError f)).conseq (fun _ h => h)
  . rintro a s ⟨hs, hr⟩
    cases r with
    | ok b => exact ⟨hs, hr⟩
    | error msg => simp [Except.mapError] at hr
  . rintro e s ⟨msg, rfl, hs, hr⟩
    cases r with
    | ok b => simp [Except.mapError] at hr
    | error msg' => exact ⟨msg, rfl, hs, by simp⟩

theorem orCleanup_spec {k : Host} {x : Connect α} {P : System → Prop} {Q : α → System → Prop}
    {E : System → Prop} (hx : x.Spec P Q (fun e s => ∃ msg, e = .failed msg ∧ E s))
    (hE : ∀ s, E s → Undone R (Cleanup.run p env s))
    : (orCleanup p env x).Spec P Q (Aborted k R) := by
  refine hx.onError ?_
  rintro _ s ⟨msg, rfl, hs⟩
  exact hE s hs

end Cleanup

structure Launch where
  privB64 : String
  wallet : String
  reg : RegisterResponse
  iface : String
  path : String

def Registers (env : Env) : Prop :=
  (∃ key, env.key = .ok key) ∧ ∃ reg, register env = .ok reg

/--
All steps up to the start of `boringtun-cli` succeed.
-/
structure Launches (p : Platform) (env : Env) (l : Launch) : Prop where
  key : env.key = .ok (l.privB64, l.wallet)
  reg : register env = .ok l.reg
  iface : findAvailableIface p env = .ok l.iface
  path : env.binary = .ok l.path
  log : env.log = .ok ()
  logClone : env.logClone = .ok ()
  spawnsTunnel : env.spawnsTunnel = .ok ()

/--
All steps between the start of `boringtun-cli` and the first route succeed.
-/
structure Prepares (p : Platform) (env : Env) (l : Launch) (gw : String) (h : Host) : Prop where
  process : env.permits (.boringtunCli l.path l.iface) = true
  appears : env.appears = true
  notCancelled : env.cancelled = false
  peer : env.keyFile = .ok () ∧ env.permits (.wgSetPeer l.iface l.privB64
    ⟨l.reg.serverPublicKey, "0.0.0.0/0", l.reg.endpoint, 25⟩) = true
  address : PermitsAddress p env l.iface l.reg
  gateway : getDefaultGateway p env = .ok gw
  dns : ∃ dns, saveOriginalDns p env h = .ok dns

/--
What an attempt leaves of the host `k` that fails after `boringtun-cli` was started.
-/
inductive Residue (p : Platform) (env : Env) (serverIp : String) (l : Launch) (k h : Host) : Prop where
  | unprepared (hnot : ∀ gw, ¬Prepares p env l gw k) (hsame : SameConfig k h)
  | unstarted (gw : String) (hprepares : Prepares p env l gw k)
    (hnot : ¬RoutingStarts p env l.iface serverIp gw k) (hsame : SameConfig k h)
  | interrupted (gw : String) (hprepares : Prepares p env l gw k)
    (hstarts : RoutingStarts p env l.iface serverIp gw k) (hnot : ¬RoutingContinues p env l.iface k)
    (hsame : SameConfig (afterStart p serverIp gw k) h)
  | withoutDns (gw : String) (hprepares : Prepares p env l gw k)
    (hstarts : RoutingStarts p env l.iface serverIp gw k)
    (hcontinues : RoutingContinues p env l.iface k) (hsame : SameConfig (unrouted p k) h)

structure Established (p : Platform) (env : Env) (serverIp : String) (l : Launch) (gw : String) (k : Host)
    (s : System) : Prop where
  ctx : ∃ dns, saveOriginalDns p env k = .ok dns ∧ s.ctx = some ⟨l.iface, gw, dns, serverIp⟩
  armed : s.cleanup.armed = false
  log : ∃ steps : List CleanupStep, s.log = steps.map .registered ++ [.disarmed]
  starts : RoutingStarts p env l.iface serverIp gw k
  continues : RoutingContinues p env l.iface k
  host : ∃ h, Routed p l.iface serverIp gw k h ∧ setVpnDns p env h = (.ok (), s.host)

section BringUp

variable {p : Platform} {env : Env} {serverIp gw : String} {l : Launch} {k h : Host}

structure Launched (env : Env) (l : Launch) (k h : Host) : Prop where
  interfaces : h.interfaces = k.interfaces
  routes : h.routes = k.routes
  rules : h.rules = k.rules
  dns : h.dns = k.dns
  resolvconf : h.resolvconf = k.resolvconf
  process : h.processes l.iface = env.permits (.boringtunCli l.path l.iface)

theorem Launched.base (hh : Launched env l k h) : Over k h where
  interfaces n := .inl (congrFun hh.interfaces n)
  routes t d := .inl (congrFun (congrFun hh.routes t) d)
  rules := hh.rules
  dns := hh.dns
  resolvconf := hh.resolvconf

theorem Launched.createInterface (hh : Launched env l k h) : Over k (createInterface env l.iface h) := by
  unfold Client.createInterface
  split
  . next hcreated =>
    simp only [Bool.and_eq_true, Option.isNone_iff_eq_none, hh.interfaces] at hcreated
    exact hh.base.setInterface hcreated.2 rfl
  . exact hh.base

theorem Launched.tunnel (hh : Launched env l k h) (hfresh : k.interfaces l.iface = none)
    (hexists : ((Client.createInterface env l.iface h).interfaces l.iface).isSome)
    : Tunnel k l.iface [] (Client.createInterface env l.iface h)
        ∧ env.permits (.boringtunCli l.path l.iface) = true ∧ env.appears = true := by
  have hover := hh.createInterface
  unfold Client.createInterface at hexists hover ⊢
  split
  . next hcreated =>
    rw [if_pos hcreated] at hover
    simp only [Bool.and_eq_true, hh.process] at hcreated
    refine ⟨⟨hover, ?_, ?_⟩, hcreated.1.2, hcreated.1.1⟩
    . rw [Over.isTunnel_setInterface, if_pos rfl, Interface.tunnel]
    . intro t d
      rw [if_neg List.not_mem_nil, ← hh.routes]
      rfl
  . next hnot =>
    rw [if_neg hnot, hh.interfaces, hfresh] at hexists
    simp at hexists

theorem Launched.isSome_interface (hh : Launched env l k h)
    (hprocess : env.permits (.boringtunCli l.path l.iface) = true) (happears : env.appears = true)
    : ((Client.createInterface env l.iface h).interfaces l.iface).isSome := by
  unfold Client.createInterface
  rw [happears, hh.process, hprocess]
  cases hi : h.interfaces l.iface with
  | none => simp [Host.setInterface]
  | some i => simp [hi]

theorem execute_killBoringtun (hk : Quiet k) (hover : Over k h)
    : SameConfig k ([CleanupStep.killBoringtun].reverse.foldl (CleanupStep.execute p env) h) :=
  hover.sameConfig_pkill hk

theorem waitForInterface_spec (hk : Quiet k) (hfresh : p ≠ .other → k.interfaces l.iface = none)
    : (orCleanup p env (waitForInterface p env l.iface)).Spec
        (Underway (Launched env l k) [.killBoringtun])
        (fun _ s => Underway (Tunnel k l.iface []) [.killBoringtun] s
          ∧ env.permits (.boringtunCli l.path l.iface) = true ∧ env.appears = true
            ∧ env.cancelled = false)
        (Aborted k (Residue p env serverIp l k)) := by
  intro s hs
  unfold orCleanup Attempt.onError waitForInterface
  dsimp only
  by_cases hcancelled : env.cancelled = true
  . rw [if_pos hcancelled]
    exact ⟨hs.ctx, hs.cleanup, hs.log, hs.host.createInterface⟩
  . rw [if_neg hcancelled]
    by_cases hexists : interfaceExists p (createInterface env l.iface s.host) l.iface = true
    . rw [if_pos hexists]
      have hsupported : p ≠ .other := by
        rintro rfl
        simp [interfaceExists] at hexists
      have hsome : ((createInterface env l.iface s.host).interfaces l.iface).isSome := by
        cases p with
        | macos => exact hexists
        | linux => exact hexists
        | other => exact absurd rfl hsupported
      obtain ⟨htunnel, hprocess, happears⟩ := hs.host.tunnel (hfresh hsupported) hsome
      exact ⟨⟨hs.ctx, hs.cleanup, hs.log, htunnel⟩, hprocess, happears, Bool.eq_false_iff.mpr hcancelled⟩
    . rw [if_neg hexists]
      have hunder : Underway (Over k) [.killBoringtun]
          { s with host := createInterface env l.iface s.host } :=
        ⟨hs.ctx, hs.cleanup, hs.log, hs.host.createInterface⟩
      refine hunder.run fun h hover => .unprepared (fun gw hprepares => hexists ?_)
        (execute_killBoringtun hk hover)
      have hsome := hs.host.isSome_interface hprepares.process hprepares.appears
      cases p with
      | macos => exact hsome
      | linux => exact hsome
      | other => exact hprepares.address.elim

theorem execute_teardownInterface {iface : String} (hk : Quiet k) (hover : Over k h)
    (hiface : k.interfaces iface = none)
    : SameConfig k ([CleanupStep.killBoringtun, .teardownInterface iface].reverse.foldl
        (CleanupStep.execute p env) h) :=
  (hover.teardownInterface hiface).sameConfig_pkill hk

theorem quiet_afterStart (hk : Quiet k) : Quiet (afterStart p serverIp gw k) := by
  cases p with
  | macos => exact hk
  | linux => exact hk
  | other => exact hk

theorem interfaces_unrouted : (unrouted p k).interfaces = k.interfaces := by
  cases p with
  | macos => rfl
  | linux => rfl
  | other => rfl

theorem Tunnel.sameConfig_execute {iface : String} {through : List (Nat × Dest)} (hk : Quiet k)
    (htunnel : Tunnel k iface through h)
    : SameConfig k ([CleanupStep.killBoringtun, .teardownInterface iface].reverse.foldl
        (CleanupStep.execute p env) h) :=
  execute_teardownInterface hk htunnel.base (htunnel.base.interfaces_eq_none hk htunnel.tunnel)

theorem Routed.sameConfig_execute {iface : String} (hk : Quiet k) (hiface : k.interfaces iface = none)
    (hrouted : Routed p iface serverIp gw k h)
    (hstarts : RoutingStarts p env iface serverIp gw k) (hcontinues : RoutingContinues p env iface k)
    : SameConfig (unrouted p k)
        ([CleanupStep.killBoringtun, .teardownInterface iface, .teardownRoutes iface serverIp].reverse.foldl
          (CleanupStep.execute p env) h) := by
  have hquiet : Quiet (unrouted p k) := by
    intro n
    rw [Host.isTunnel, interfaces_unrouted]
    exact hk n
  refine execute_teardownInterface hquiet (hrouted.teardownRoutes hstarts hcontinues) ?_
  rw [interfaces_unrouted, hiface]

theorem saveOriginalDns_congr {h' : Host} (hdns : h'.dns = h.dns)
    : saveOriginalDns p env h' = saveOriginalDns p env h := by
  unfold saveOriginalDns
  rw [hdns]

theorem setVpnDns_error {h' : Host} {e : String} (hset : setVpnDns p env h = (.error e, h')) : h' = h := by
  have hsudo : ∀ c, runSudo env c h = (.error e, h') → h' = h := by
    intro c hrun
    unfold runSudo at hrun
    split at hrun
    . simp at hrun
    . simp only [Prod.mk.injEq] at hrun
      exact hrun.2.symm
  cases p with
  | macos =>
    unfold setVpnDns at hset
    cases hservice : getPrimaryNetworkService env with
    | error e' =>
      simp only [hservice] at hset
      cases hset
      rfl
    | ok service =>
      simp only [hservice] at hset
      exact hsudo _ hset
  | linux =>
    simp only [setVpnDns] at hset
    split at hset
    . split at hset
      . cases hset
        rfl
      . cases hset
    . split at hset
      . cases hset
      . cases hset
        rfl
  | other => cases hset

theorem setVpnDns_spec (P : Host → Prop)
    : (setVpnDns p env).Spec P (fun _ h' => ∃ h, P h ∧ setVpnDns p env h = (.ok (), h')) (fun _ => P) :=
  .of_cases (fun h _ _ hh hset => ⟨h, hh, hset⟩) fun _ _ _ hh hset => setVpnDns_error hset ▸ hh

theorem bringUp_spec (hk : Quiet k) (hfresh : p ≠ .other → k.interfaces l.iface = none)
    : (bringUp p env serverIp l.iface l.privB64 l.wallet l.reg).Spec (Underway (Launched env l k) [])
        (fun _ s => ∃ gw, Established p env serverIp l gw k s)
        (Aborted k (Residue p env serverIp l k)) := by
  unfold bringUp
  refine .bind (Q := fun _ => Underway (Launched env l k) [.killBoringtun])
    (.modify fun s hs => hs.push .killBoringtun) fun _ => ?_
  refine (waitForInterface_spec hk hfresh).bind fun _ => .of_and fun hwait => ?_
  -- 5. and 6. fail without an effect on the host below the tunnel
  refine (orCleanup_spec (onHost_spec (decides_configureWireguard hk _ _ _)) fun s hs => hs.run
    fun h hh => .unprepared (fun gw hprepares => hh.2 hprepares.peer)
      (execute_killBoringtun hk hh.1.base)).bind fun _ => Underway.of_and fun hpeer => ?_
  refine (orCleanup_spec (onHost_spec (decides_configureInterfaceIp hk l.reg)) fun s hs => hs.run
    fun h hh => .unprepared (fun gw hprepares => hh.2 hprepares.address)
      (execute_killBoringtun hk hh.1.base)).bind fun _ => Underway.of_and fun haddress => ?_
  refine .bind (Q := fun _ => Underway (Tunnel k l.iface []) [.killBoringtun, .teardownInterface l.iface])
    (.modify fun s hs => hs.push _) fun _ => ?_
  -- 7. only asks
  refine (orCleanup_spec (orFail_mapError_spec _ _) fun s hs => hs.1.run
    fun h hh => .unprepared (fun gw hprepares => hs.2 gw hprepares.gateway)
      (hh.sameConfig_execute hk)).bind fun gw => .of_and fun hgateway => ?_
  refine .bind (Q := fun a s => Underway (Tunnel k l.iface [])
      [.killBoringtun, .teardownInterface l.iface] s ∧ a.host.dns = k.dns)
    (.get fun s hs => ⟨hs, hs.host.base.dns⟩) fun a => .of_and fun hdns => ?_
  rw [saveOriginalDns_congr hdns]
  refine (orCleanup_spec (orFail_mapError_spec _ _) fun s hs => hs.1.run
    fun h hh => .unprepared (fun gw hprepares => hprepares.dns.elim hs.2)
      (hh.sameConfig_execute hk)).bind fun dns => .of_and fun hsaved => ?_
  have hprepares : Prepares p env l gw k :=
    ⟨hwait.1, hwait.2.1, hwait.2.2, hpeer, haddress, hgateway, dns, hsaved⟩
  -- 8. may fail after its first command has changed the host
  refine (orCleanup_spec (onHost_spec (configureFullTunnel_spec hk)) fun s hs => hs.run ?_).bind
    fun _ => Underway.of_and fun hrouting => ?_
  . rintro h (⟨⟨through, htunnel⟩, hnot⟩ | ⟨⟨through, htunnel⟩, hstarts, hnot⟩)
    . exact .unstarted gw hprepares hnot (htunnel.sameConfig_execute hk)
    . exact .interrupted gw hprepares hstarts hnot (htunnel.sameConfig_execute (quiet_afterStart hk))
  refine .bind (Q := fun _ => Underway (Routed p l.iface serverIp gw k)
      [.killBoringtun, .teardownInterface l.iface, .teardownRoutes l.iface serverIp])
    (.modify fun s hs => hs.push _) fun _ => ?_
  have hiface : k.interfaces l.iface = none := by
    apply hfresh
    rintro rfl
    exact haddress
  -- 9. fails without an effect
  refine (orCleanup_spec (onHost_spec (setVpnDns_spec _)) fun s hs => hs.run fun h hh =>
    .withoutDns gw hprepares hrouting.1 hrouting.2
      (hh.sameConfig_execute hk hiface hrouting.1 hrouting.2)).bind fun _ => ?_
  refine .bind (Q := fun _ => Underway _ [.killBoringtun, .teardownInterface l.iface,
      .teardownRoutes l.iface serverIp, .restoreDns])
    (.modify fun s hs => hs.push _) fun _ => ?_
  intro s hs
  have hlog := congrArg (· ++ [CleanupEvent.disarmed]) hs.log
  exact ⟨gw, ⟨dns, hsaved, rfl⟩, rfl, ⟨_, hlog⟩, hrouting.1, hrouting.2, hs.host⟩

end BringUp

section Connect

variable {p : Platform} {env : Env} {serverIp : String} {m : VpnManager} {h h' : Host}

/--
What an attempt that fails leaves of the host `h`.
-/
inductive Remainder (p : Platform) (env : Env) (serverIp : String) (h h' : Host) : Prop where
  | unregistered (hnot : ¬Registers env) (heq : h' = h)
  | unlaunched (hregisters : Registers env) (hnot : ∀ l, ¬Launches p env l) (heq : h' = h.pkill)
  | launched (l : Launch) (hlaunches : Launches p env l) (hresidue : Residue p env serverIp l h.pkill h')

/--
Of the names that are tried for the tunnel, the tool that lists the interfaces shows those that are taken.
-/
def Lists (p : Platform) (env : Env) (h : Host) : Prop :=
  match p with
  | .macos => ∀ listing, env.listing = .ok listing → ∀ i ∈ List.range' 9 22,
    (h.interfaces (ifaceName "utun" i)).isSome →
      (ifaceName "utun" i).toList ∈ Lines.splitWhitespace listing
  | .linux => ∀ listing, env.listing = .ok listing → ∀ i ∈ List.range' 0 21,
    (h.interfaces (ifaceName "wg" i)).isSome → (ifaceName "wg" i).toList ++ [':'] <:+: listing
  | .other => True

theorem free_of_find {listing : Except String (List Char)} {failed exhausted : String}
    {range : List Nat} {taken : List Char → Nat → Bool} {name : Nat → String} {iface : String}
    (h : (match listing with
      | .error e => .error (failed ++ e)
      | .ok existing =>
        match range.find? fun i => !taken existing i with
        | some i => .ok (name i)
        | none => .error exhausted) = Except.ok iface)
    : ∃ existing, ∃ i ∈ range, listing = .ok existing ∧ taken existing i = false ∧ iface = name i := by
  cases listing with
  | error e => simp at h
  | ok existing =>
    dsimp only at h
    split at h
    . next i hfind =>
      cases h
      have hfree := List.find?_some hfind
      exact ⟨existing, i, List.mem_of_find?_eq_some hfind, rfl, (Bool.not_eq_true' _).mp hfree, rfl⟩
    . simp at h

theorem interfaces_findAvailableIface {iface : String} (hlists : Lists p env h)
    (hiface : findAvailableIface p env = .ok iface) (hsupported : p ≠ .other)
    : h.interfaces iface = none := by
  rw [← Option.not_isSome_iff_eq_none]
  intro hsome
  cases p with
  | macos =>
    obtain ⟨existing, i, hi, hlisting, hfree, rfl⟩ := free_of_find hiface
    simp only [List.any_eq_false, beq_iff_eq] at hfree
    exact hfree _ (hlists existing hlisting i hi hsome) rfl
  | linux =>
    obtain ⟨existing, i, hi, hlisting, hfree, rfl⟩ := free_of_find hiface
    exact of_decide_eq_false hfree (hlists existing hlisting i hi hsome)
  | other => exact absurd rfl hsupported

structure StoppedAt (p : Platform) (env : Env) (serverIp : String) (h : Host) (e : Stop) (s : System)
    : Prop where
  ctx : s.ctx = none
  log : ∃ steps : List CleanupStep, s.log = steps.map .registered ++ steps.reverse.map .executed
  host : ∀ msg, e = .failed msg → Remainder p env serverIp h s.host

theorem launched_boringtunCli (l : Launch) (h : Host)
    : Launched env l h.pkill ((command env (.boringtunCli l.path l.iface) h.pkill).getD h.pkill) := by
  unfold command
  split
  . next hpermits =>
    refine ⟨rfl, rfl, rfl, rfl, rfl, ?_⟩
    rw [hpermits]
    exact Function.update_self ..
  . next hnot => exact ⟨rfl, rfl, rfl, rfl, rfl, (Bool.eq_false_iff.mpr hnot).symm⟩

theorem connectSystem_spec {serverIp : Option String} (hlists : Lists p env h.pkill)
    : (connectSystem p env serverIp).Spec (fun s => s = ⟨none, h, .new, []⟩)
        (fun _ s => ∃ l gw, Launches p env l
          ∧ Established p env (serverIp.getD env.serverIp) l gw h.pkill s)
        (StoppedAt p env (serverIp.getD env.serverIp) h) := by
  unfold connectSystem
  refine .bind (Q := fun a s => s = ⟨none, h, .new, []⟩ ∧ a.ctx = none) (.get ?_) fun a =>
    .of_and fun ha => ?_
  . rintro s rfl
    exact ⟨rfl, rfl⟩
  rw [ha]
  -- Up to the registration nothing has happened
  have hunregistered : ∀ e s, (∃ msg, e = Stop.failed msg ∧ s = ⟨none, h, .new, []⟩ ∧ ¬Registers env) →
      StoppedAt p env (serverIp.getD env.serverIp) h e s := by
    rintro _ _ ⟨msg, rfl, rfl, hnot⟩
    exact ⟨rfl, ⟨[], rfl⟩, fun _ _ => .unregistered hnot rfl⟩
  refine (orFail_spec env.key).bind_of (fun e s ⟨msg, he, hs, hkey⟩ => hunregistered e s ⟨msg, he, hs,
    fun ⟨⟨key, hok⟩, _⟩ => by simp [hok] at hkey⟩) fun key => .of_and fun hkey => ?_
  refine (orFail_spec (register env)).bind_of (fun e s ⟨msg, he, hs, hreg⟩ => hunregistered e s ⟨msg, he,
    hs, fun ⟨_, reg, hok⟩ => by simp [hok] at hreg⟩) fun reg => .of_and fun hreg => ?_
  have hregisters : Registers env := ⟨⟨key, hkey⟩, reg, hreg⟩
  refine .bind (Q := fun _ s => s = ⟨none, h.pkill, .new, []⟩) (.modify ?_) fun _ => ?_
  . rintro s rfl
    rfl
  -- Up to the launch only the processes that were already running have ended
  have hunlaunched : ∀ e s, (∃ msg, e = Stop.failed msg ∧ s = ⟨none, h.pkill, .new, []⟩
      ∧ ∀ l, ¬Launches p env l) → StoppedAt p env (serverIp.getD env.serverIp) h e s := by
    rintro _ _ ⟨msg, rfl, rfl, hnot⟩
    exact ⟨rfl, ⟨[], rfl⟩, fun _ _ => .unlaunched hregisters hnot rfl⟩
  refine (orFail_spec (findAvailableIface p env)).bind_of (fun e s ⟨msg, he, hs, hiface⟩ =>
    hunlaunched e s ⟨msg, he, hs, fun l hl => by simp [hl.iface] at hiface⟩) fun iface =>
    .of_and fun hiface => ?_
  refine (orFail_spec env.binary).bind_of (fun e s ⟨msg, he, hs, hpath⟩ =>
    hunlaunched e s ⟨msg, he, hs, fun l hl => by simp [hl.path] at hpath⟩) fun path =>
    .of_and fun hpath => ?_
  refine (orFail_mapError_spec env.log _).bind_of (fun e s ⟨msg, he, hs, hnot⟩ =>
    hunlaunched e s ⟨msg, he, hs, fun l hl => hnot () hl.log⟩) fun _ => .of_and fun hlog => ?_
  refine (orFail_mapError_spec env.logClone _).bind_of (fun e s ⟨msg, he, hs, hnot⟩ =>
    hunlaunched e s ⟨msg, he, hs, fun l hl => hnot () hl.logClone⟩) fun _ => .of_and fun hclone => ?_
  refine (orFail_mapError_spec env.spawnsTunnel _).bind_of (fun e s ⟨msg, he, hs, hnot⟩ =>
    hunlaunched e s ⟨msg, he, hs, fun l hl => hnot () hl.spawnsTunnel⟩) fun _ => .of_and fun hspawns => ?_
  let l : Launch := ⟨key.1, key.2, reg, iface, path⟩
  have hlaunches : Launches p env l := ⟨hkey, hreg, hiface, hpath, hlog, hclone, hspawns⟩
  refine .bind (Q := fun _ => Underway (Launched env l h.pkill) []) (.modify ?_) fun _ => ?_
  . rintro s rfl
    exact ⟨rfl, rfl, rfl, launched_boringtunCli l h⟩
  refine Attempt.Spec.atEnd (bringUp_spec (l := l) (quiet_pkill h)
    (interfaces_findAvailableIface hlists hlaunches.iface)) ?_ ?_
  . rintro _ s ⟨gw, hestablished⟩
    rw [drop_of_disarmed hestablished.armed]
    exact ⟨l, gw, hlaunches, hestablished⟩
  . intro e s haborted
    cases e with
    | failed msg =>
      have hundone : Undone _ s := haborted
      rw [drop_of_disarmed hundone.armed]
      exact ⟨hundone.ctx, hundone.log, fun _ _ => .launched l hlaunches hundone.host⟩
    | cancelled =>
      have hundone : Undone (fun _ => True) (Cleanup.drop p env s) :=
        Underway.drop haborted fun _ _ => trivial
      exact ⟨hundone.ctx, hundone.log, by simp⟩

theorem Launches.unique {l l' : Launch} (hl : Launches p env l) (hl' : Launches p env l') : l' = l := by
  obtain ⟨privB64, wallet, reg, iface, path⟩ := l
  obtain ⟨privB64', wallet', reg', iface', path'⟩ := l'
  have hkey := hl.key.symm.trans hl'.key
  have hreg := hl.reg.symm.trans hl'.reg
  have hiface := hl.iface.symm.trans hl'.iface
  have hpath := hl.path.symm.trans hl'.path
  simp only [Except.ok.injEq, Prod.mk.injEq] at hkey hreg hiface hpath
  rw [hkey.1, hkey.2, hreg, hiface, hpath]

/--
If the first command for the routes takes effect, then so do all of them, and the table that is flushed
in the end was empty.
-/
def RoutesUndone (p : Platform) (env : Env) (serverIp : String) (l : Launch) (h : Host) : Prop :=
  ∀ gw, Prepares p env l gw h → RoutingStarts p env l.iface serverIp gw h →
    RoutingContinues p env l.iface h ∧ (p = .linux → ∀ d, h.routes fwmark d = none)

theorem RoutesUndone.congr {l : Launch} (hundone : RoutesUndone p env serverIp l h)
    (hsame : SameConfig h h')
    : RoutesUndone p env serverIp l h' := by
  intro gw hprepares hstarts
  have hdns : saveOriginalDns p env h' = saveOriginalDns p env h := saveOriginalDns_congr hsame.dns
  have hold := hundone gw { hprepares with dns := hdns ▸ hprepares.dns }
  cases p with
  | macos =>
    simp only [RoutingStarts, RoutingContinues, hsame.routes] at *
    exact hold hstarts
  | linux =>
    simp only [RoutingStarts, RoutingContinues, hsame.routes] at *
    exact hold hstarts
  | other => exact hstarts.elim

theorem Prepares.gateway_unique {l : Launch} {gw gw' : String} (hprepares : Prepares p env l gw h)
    (hprepares' : Prepares p env l gw' h)
    : gw' = gw := by
  have heq := hprepares.gateway.symm.trans hprepares'.gateway
  cases heq
  rfl

theorem not_sameConfig_afterStart {iface gw : String} (hstarts : RoutingStarts p env iface serverIp gw h)
    : ¬SameConfig h (afterStart p serverIp gw h) := by
  intro hsame
  cases p with
  | macos =>
    have hroute := congrFun (congrFun hsame.routes mainTable) (.host serverIp)
    rw [hstarts.2] at hroute
    simp [afterStart, withServerRoute, Host.addRoute] at hroute
  | linux =>
    have hrule := congrFun hsame.rules tunnelRule
    simp [afterStart, Host.addRule] at hrule
  | other => exact hstarts

theorem sameConfig_unrouted_iff
    : SameConfig h (unrouted p h) ↔ (p = .linux → ∀ d, h.routes fwmark d = none) := by
  constructor
  . rintro hsame rfl d
    have hroute := congrFun (congrFun hsame.routes fwmark) d
    simp only [unrouted, Host.removeRoutes, decide_true, if_true] at hroute
    exact hroute.symm
  . intro hempty
    cases p with
    | macos => exact .refl h
    | linux =>
      refine ⟨rfl, ?_, rfl, rfl⟩
      funext t d
      simp only [unrouted, Host.removeRoutes, decide_eq_true_eq]
      split
      . next heq => rw [heq, hempty rfl]
      . rfl
    | other => exact .refl h

theorem Residue.interfaces {l : Launch} {k : Host} (hresidue : Residue p env serverIp l k h)
    : h.interfaces = k.interfaces := by
  cases hresidue with
  | unprepared hnot hsame => exact hsame.interfaces
  | unstarted gw hprepares hnot hsame => exact hsame.interfaces
  | interrupted gw hprepares hstarts hnot hsame =>
    cases p with
    | macos => exact hsame.interfaces
    | linux => exact hsame.interfaces
    | other => exact hsame.interfaces
  | withoutDns gw hprepares hstarts hcontinues hsame =>
    exact hsame.interfaces.trans interfaces_unrouted

theorem Residue.sameConfig_iff {l : Launch} {k : Host} (hresidue : Residue p env serverIp l k h)
    : SameConfig k h ↔ RoutesUndone p env serverIp l k := by
  cases hresidue with
  | unprepared hnot hsame => exact ⟨fun _ gw hprepares => absurd hprepares (hnot gw), fun _ => hsame⟩
  | unstarted gw hprepares hnot hsame =>
    refine ⟨fun _ gw' hprepares' hstarts => ?_, fun _ => hsame⟩
    rw [hprepares.gateway_unique hprepares'] at hstarts
    exact absurd hstarts hnot
  | interrupted gw hprepares hstarts hnot hsame =>
    constructor
    . intro hsame'
      exact absurd (hsame'.trans hsame.symm) (not_sameConfig_afterStart hstarts)
    . intro hundone
      exact absurd (hundone gw hprepares hstarts).1 hnot
  | withoutDns gw hprepares hstarts hcontinues hsame =>
    constructor
    . intro hsame' gw' _ _
      exact ⟨hcontinues, sameConfig_unrouted_iff.mp (hsame'.trans hsame.symm)⟩
    . intro hundone
      exact (sameConfig_unrouted_iff.mpr (hundone gw hprepares hstarts).2).trans hsame

theorem Remainder.sameConfig_iff (hremainder : Remainder p env serverIp h h')
    : SameConfig h h'
        ↔
      (Registers env → Quiet h) ∧ ∀ l, Launches p env l → RoutesUndone p env serverIp l h := by
  cases hremainder with
  | unregistered hnot heq =>
    rw [heq]
    refine ⟨fun _ => ⟨fun hregisters => absurd hregisters hnot, fun l hl => ?_⟩, fun _ => .refl h⟩
    exact absurd ⟨⟨_, hl.key⟩, _, hl.reg⟩ hnot
  | unlaunched hregisters hnot heq =>
    rw [heq]
    constructor
    . exact fun hsame => ⟨fun _ => quiet_of_interfaces_pkill hsame.interfaces, fun l hl => absurd hl (hnot l)⟩
    . exact fun ⟨hquiet, _⟩ => (hquiet hregisters).sameConfig_pkill
  | launched l hlaunches hresidue =>
    constructor
    . intro hsame
      have hquiet := quiet_of_interfaces_pkill (hresidue.interfaces.symm.trans hsame.interfaces)
      refine ⟨fun _ => hquiet, fun l' hlaunches' => ?_⟩
      rw [hlaunches.unique hlaunches']
      have hpkill := hquiet.sameConfig_pkill
      exact (hresidue.sameConfig_iff.mp (hpkill.symm.trans hsame)).congr hpkill.symm
    . rintro ⟨hquiet, hundone⟩
      have hpkill := (hquiet ⟨⟨_, hlaunches.key⟩, _, hlaunches.reg⟩).sameConfig_pkill
      exact hpkill.trans (hresidue.sameConfig_iff.mpr ((hundone l hlaunches).congr hpkill))

/--
The registered steps were all executed, the last one first, or none of them was and none will be.
-/
def Orderly (log : List CleanupEvent) : Prop :=
  ∃ steps : List CleanupStep,
    log = steps.map .registered ++ steps.reverse.map .executed
      ∨ log = steps.map .registered ++ [.disarmed]

/--
When a failed attempt can be undone: there is no connection yet, there are no tunnels that would be
killed as stale ones, and the routes are either not touched or set up completely.
-/
structure Undoable (p : Platform) (env : Env) (m : VpnManager) (serverIp : String) (h : Host) : Prop where
  ctx : m.ctx = none
  quiet : Registers env → Quiet h
  routes : ∀ l, Launches p env l → RoutesUndone p env serverIp l h

theorem connect_atomic_iff (p : Platform) (env : Env) (m : VpnManager) (serverIp : Option String) (h : Host)
    (hlists : Lists p env h.pkill)
    : Orderly (m.connect p env serverIp h).log
        ∧
      ∀ e, (m.connect p env serverIp h).result = .error (.failed e) →
        (SameConfig h (m.connect p env serverIp h).host
            ∧ (m.connect p env serverIp h).manager.ctx = none
          ↔
        Undoable p env m (serverIp.getD env.serverIp) h) := by
  obtain ⟨ctx⟩ := m
  cases ctx with
  | some ctx =>
    refine ⟨⟨[], .inl rfl⟩, fun _ _ => ⟨fun hboth => ?_, fun hundoable => ?_⟩⟩
    . cases hboth.2
    . cases hundoable.ctx
  | none =>
    have hspec : (connectSystem p env serverIp).Spec _ _ _ := connectSystem_spec hlists
    unfold VpnManager.connect
    cases hrun : connectSystem p env serverIp ⟨none, h, .new, []⟩ with
    | mk r s =>
      cases r with
      | ok info =>
        obtain ⟨l, gw, _, hestablished⟩ := hspec.ok rfl hrun
        obtain ⟨steps, hlog⟩ := hestablished.log
        exact ⟨⟨steps, .inr hlog⟩, by simp⟩
      | error e =>
        have hstopped := hspec.error rfl hrun
        obtain ⟨steps, hlog⟩ := hstopped.log
        refine ⟨⟨steps, .inl hlog⟩, fun msg hfailed => ?_⟩
        have hremainder := hstopped.host msg (Except.error.inj hfailed)
        constructor
        . rintro ⟨hsame, _⟩
          obtain ⟨hquiet, hroutes⟩ := hremainder.sameConfig_iff.mp hsame
          exact ⟨rfl, hquiet, hroutes⟩
        . intro hundoable
          exact ⟨hremainder.sameConfig_iff.mpr ⟨hundoable.quiet, hundoable.routes⟩, hstopped.ctx⟩

end Connect

namespace Sample

def host : Host where
  processes _ := false
  interfaces _ := none
  routes table dest := if table = mainTable ∧ dest = .default then some (.gateway "192.168.1.1") else none
  rules _ := 0
  dns := {
    servers _ := []
    resolvConf := some (Text.bytes "nameserver 192.168.1.1\n")
    records _ := none
  }
  resolvconf := none
  isSome_interface := by
    intro table dest name hroute
    split at hroute
    . simp at hroute
    . simp at hroute

def env (refused : Command) : Env where
  serverIp := "204.168.211.96"
  key := .ok ("cHJpdmF0ZQ==", "0x00")
  register := .registered ⟨"c2VydmVy", "204.168.211.96:51820", "10.0.0.185/32"⟩
  listing := .ok "1: lo: <LOOPBACK,UP,LOWER_UP> mtu 65536".toList
  binary := .ok "boringtun-cli"
  log := .ok ()
  logClone := .ok ()
  spawnsTunnel := .ok ()
  appears := true
  cancelled := false
  keyFile := .ok ()
  permits c := c ≠ refused
  stderr _ := []
  defaultRoute := .ok "default via 192.168.1.1 dev eth0".toList
  hardwarePorts := .ok []
  dnsQuery := .printed
  which := true
  spawnsResolvconf := .ok ()
  balance := .ok "1.000000"

theorem lists_env (refused : Command) : Lists .linux (env refused) host.pkill := by
  intro listing _ i _ hsome
  have hnone : host.pkill.interfaces (ifaceName "wg" i) = none := by
    unfold Host.pkill Host.removeInterfaces
    dsimp only
    split
    . rfl
    . rfl
  simp [hnone] at hsome

def fails (outcome : ConnectOutcome) : Bool :=
  match outcome.result with
  | .error (.failed _) => true
  | _ => false

theorem result_of_fails {outcome : ConnectOutcome} (hfails : fails outcome = true)
    : ∃ e, outcome.result = .error (.failed e) := by
  unfold fails at hfails
  split at hfails
  . next e hresult => exact ⟨e, hresult⟩
  . simp at hfails

end Sample

/--
The route through the tunnel is refused after the rule that leads to its table was added. The rule is
not removed.
-/
theorem exists_rule_left
    : ∃ (p : Platform) (env : Env) (m : VpnManager) (serverIp : Option String) (h : Host) (e : String),
        Lists p env h.pkill ∧ m.ctx = none
          ∧ (m.connect p env serverIp h).result = .error (.failed e)
          ∧ h.rules tunnelRule = 0 ∧ (m.connect p env serverIp h).host.rules tunnelRule = 1 := by
  have hrun : Sample.fails (VpnManager.connect .linux (Sample.env (.ipRouteAddDefault "wg0" fwmark))
        ⟨none⟩ none Sample.host) = true
      ∧ (VpnManager.connect .linux (Sample.env (.ipRouteAddDefault "wg0" fwmark))
        ⟨none⟩ none Sample.host).host.rules tunnelRule = 1 := by
    decide +kernel
  obtain ⟨e, hresult⟩ := Sample.result_of_fails hrun.1
  exact ⟨.linux, _, ⟨none⟩, none, Sample.host, e, Sample.lists_env _, rfl, hresult, rfl, hrun.2⟩

theorem connect_atomic_iff_without_dns
    : ∃ (env : Env) (e : String),
        (VpnManager.connect .linux env ⟨none⟩ none Sample.host).result = .error (.failed e)
          ∧ SameConfig Sample.host (VpnManager.connect .linux env ⟨none⟩ none Sample.host).host
          ∧ (VpnManager.connect .linux env ⟨none⟩ none Sample.host).manager.ctx = none := by
  have hfails : Sample.fails (VpnManager.connect .linux
      (Sample.env (.writeResolvConf ("# Set by vpntee\n" ++ vpnNameservers))) ⟨none⟩ none Sample.host)
        = true := by
    decide +kernel
  obtain ⟨e, hresult⟩ := Sample.result_of_fails hfails
  refine ⟨_, e, hresult,
    ((connect_atomic_iff .linux _ ⟨none⟩ none Sample.host (Sample.lists_env _)).2 e hresult).mpr
      ⟨rfl, fun _ n => rfl, fun l _ gw _ _ => ⟨⟨⟨?_, rfl⟩, ?_⟩, fun _ d => rfl⟩⟩⟩
  . simp [Sample.env]
  . simp [Sample.env]

end Client
