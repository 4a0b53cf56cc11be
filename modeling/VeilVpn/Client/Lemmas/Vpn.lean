import VeilVpn.Client.Impl.Vpn
import VeilVpn.Client.Lemmas.Host

namespace Client

/--
The tunnel exists on top of `k`, and the given destinations are routed through it.
-/
structure Tunnel (k : Host) (iface : String) (through : List (Nat × Dest)) (h : Host) : Prop where
  base : Over k h
  tunnel : h.isTunnel iface = true
  routes : ∀ t d, h.routes t d = if (t, d) ∈ through then some (.interface iface) else k.routes t d

/--
The computation leaves `T` alone and succeeds if and only if `c` holds.
-/
def Decides {σ ε α : Type} (T : σ → Prop) (x : Attempt σ ε α) (c : Prop) : Prop :=
  x.Spec T (fun _ s => T s ∧ c) (fun _ s => T s ∧ ¬c)

section Decides

variable {σ ε α β : Type} {T : σ → Prop} {c c' : Prop}

theorem Decides.fail {e : ε} : Decides T (Attempt.fail e : Attempt σ ε α) False :=
  Attempt.Spec.fail fun _ hs => ⟨hs, not_false⟩

theorem Decides.congr {x : Attempt σ ε α} (hx : Decides T x c) (hc : c ↔ c') : Decides T x c' := by
  rw [Decides, ← hc]
  exact hx

theorem Decides.bind {x : Attempt σ ε α} {y : Attempt σ ε β} (hx : Decides T x c) (hy : Decides T y c')
    : Decides T (x >>= fun _ => y) (c ∧ c') := by
  apply Attempt.Spec.bind (Q := fun _ s => T s ∧ c)
  . apply hx.conseq (fun _ h => h) (fun _ _ h => h)
    rintro e s ⟨hs, hnot⟩
    exact ⟨hs, fun h => hnot h.1⟩
  . refine fun _ => .of_and fun hc => hy.conseq (fun _ h => h) ?_ ?_
    . exact fun _ _ h => ⟨h.1, hc, h.2⟩
    . exact fun _ _ h => ⟨h.1, fun hboth => h.2 hboth.2⟩

end Decides

section Commands

variable {p : Platform} {env : Env} {k h : Host} {iface : String} {through : List (Nat × Dest)}
  {c : Command}

theorem runSudo_spec (P : Host → Prop) (c : Command)
    : (runSudo env c).Spec P
        (fun _ h' => ∃ h, P h ∧ env.permits c = true ∧ c.apply h = some h')
        (fun _ h => P h ∧ ¬(env.permits c = true ∧ (c.apply h).isSome)) := by
  intro h hh
  unfold runSudo command
  by_cases hpermits : env.permits c = true
  . rw [if_pos hpermits]
    cases happly : c.apply h with
    | none => exact ⟨hh, by simp [happly]⟩
    | some h' => exact ⟨h, hh, hpermits, happly⟩
  . rw [if_neg hpermits]
    exact ⟨hh, fun hboth => hpermits hboth.1⟩

theorem Tunnel.updateInterface (hk : Quiet k) (htunnel : Tunnel k iface through h) {f : Interface → Interface}
    (hf : ∀ i, (f i).boringtun = i.boringtun)
    : ∃ h', Command.updateInterface h iface f = some h' ∧ Tunnel k iface through h' := by
  obtain ⟨i, hi, hboringtun⟩ := isTunnel_eq_true htunnel.tunnel
  refine ⟨h.setInterface iface (f i), ?_, ?_, ?_, htunnel.routes⟩
  . rw [Command.updateInterface, hi, Option.map_some]
  . exact htunnel.base.setInterface (htunnel.base.interfaces_eq_none hk htunnel.tunnel)
      ((hf i).trans hboringtun)
  . rw [Over.isTunnel_setInterface, if_pos rfl, hf, hboringtun]

theorem decides_updateInterface (hk : Quiet k) (f : Interface → Interface)
    (hc : ∀ h, c.apply h = Command.updateInterface h iface f)
    (hf : ∀ i, (f i).boringtun = i.boringtun)
    : Decides (Tunnel k iface through) (runSudo env c) (env.permits c = true) := by
  apply (runSudo_spec (Tunnel k iface through) c).conseq (fun _ h => h)
  . rintro _ h' ⟨h, hh, hpermits, happly⟩
    obtain ⟨h₁, hupdate, htunnel⟩ := hh.updateInterface hk hf
    rw [hc, hupdate, Option.some.injEq] at happly
    exact ⟨happly ▸ htunnel, hpermits⟩
  . rintro _ h ⟨hh, hnot⟩
    refine ⟨hh, fun hpermits => hnot ⟨hpermits, ?_⟩⟩
    obtain ⟨h₁, hupdate, _⟩ := hh.updateInterface hk hf
    rw [hc, hupdate, Option.isSome_some]

theorem decides_configureWireguard (hk : Quiet k) (privKey serverPub endpoint : String)
    : Decides (Tunnel k iface through) (configureWireguard env iface privKey serverPub endpoint)
        (env.keyFile = .ok () ∧ env.permits (.wgSetPeer iface privKey
          ⟨serverPub, "0.0.0.0/0", endpoint, 25⟩) = true) := by
  unfold configureWireguard
  cases hfile : env.keyFile with
  | error e => exact Decides.fail.congr (by simp)
  | ok =>
    let f := fun (i : Interface) => { i with
      privateKey := some privKey
      peer := some (⟨serverPub, "0.0.0.0/0", endpoint, 25⟩ : WgPeer) }
    exact (decides_updateInterface hk f (fun _ => rfl) (fun _ => rfl)).congr (by simp)

def PermitsAddress (p : Platform) (env : Env) (iface : String) (reg : RegisterResponse) : Prop :=
  match p with
  | .macos => env.permits (.ifconfigUp iface (String.ofList (reg.assignedIp.toList.takeWhile (· ≠ '/'))))
      = true
  | .linux =>
    env.permits (.ipAddrAdd
      (if reg.assignedIp.toList.contains '/' then reg.assignedIp else reg.assignedIp ++ "/32") iface)
        = true
      ∧ env.permits (.ipLinkUp iface) = true
  | .other => False

theorem decides_configureInterfaceIp (hk : Quiet k) (reg : RegisterResponse)
    : Decides (Tunnel k iface through)
        (configureInterfaceIp p env iface (String.ofList (reg.assignedIp.toList.takeWhile (· ≠ '/')))
          reg.assignedIp)
        (PermitsAddress p env iface reg) := by
  cases p with
  | macos =>
    exact decides_updateInterface hk (fun i => { i with addresses := _ :: i.addresses, up := true })
      (fun _ => rfl) (fun _ => rfl)
  | linux =>
    exact (decides_updateInterface hk (fun i => { i with addresses := _ :: i.addresses })
      (fun _ => rfl) (fun _ => rfl)).bind
      (decides_updateInterface hk (fun i => { i with up := true }) (fun _ => rfl) (fun _ => rfl))
  | other => exact Decides.fail

theorem Over.teardownInterface (hover : Over k h) (hiface : k.interfaces iface = none)
    : Over k (teardownInterface p iface h) := by
  have hremove : ∀ h, Over k h → Over k
      ((if (h.interfaces iface).isSome then some (h.removeInterfaces (· = iface)) else none).getD h) := by
    intro h hover
    split
    . exact hover.removeInterface hiface
    . exact hover
  cases p with
  | macos =>
    have hdown : Over k (teardown h (.ifconfigDown iface)) := by
      have happly : Command.apply h (.ifconfigDown iface)
          = (h.interfaces iface).map fun i => h.setInterface iface { i with up := false } := rfl
      rw [teardown, happly]
      cases hi : h.interfaces iface with
      | none => exact hover
      | some i =>
        refine hover.setInterface hiface ?_
        rcases hover.interfaces iface with hsame | ⟨_, htunnel⟩
        . rw [hi, hiface] at hsame
          simp at hsame
        . rw [Host.isTunnel, hi] at htunnel
          exact htunnel
    exact hremove _ hdown
  | linux => exact hremove h hover
  | other => exact hover

end Commands

section Routes

variable {p : Platform} {env : Env} {k h : Host} {iface serverIp gw : String}
  {through : List (Nat × Dest)} {c : Command}

theorem runSudo_addInterfaceRoute (t : Nat) (d : Dest) (hnew : (t, d) ∉ through)
    (hc : ∀ h, c.apply h = Command.addInterfaceRoute h t d iface)
    : (runSudo env c).Spec (Tunnel k iface through)
        (fun _ h => Tunnel k iface ((t, d) :: through) h
          ∧ (env.permits c = true ∧ k.routes t d = none))
        (fun _ h => Tunnel k iface through h ∧ ¬(env.permits c = true ∧ k.routes t d = none)) := by
  apply (runSudo_spec (Tunnel k iface through) c).conseq (fun _ h => h)
  . rintro _ h' ⟨h, hh, hpermits, happly⟩
    have hroute := hh.routes t d
    rw [if_neg hnew] at hroute
    rw [hc, Command.addInterfaceRoute] at happly
    split at happly
    . unfold Command.addRoute at happly
      split at happly
      . next hnone =>
        cases happly
        rw [Option.isNone_iff_eq_none] at hnone
        refine ⟨⟨hh.base.addInterfaceRoute hh.tunnel hnone _, hh.tunnel, ?_⟩, hpermits,
          hroute.symm.trans hnone⟩
        intro t' d'
        simp only [Host.addRoute, List.mem_cons, Prod.mk.injEq, hh.routes t' d']
        by_cases hsame : t' = t ∧ d' = d
        . simp [hsame]
        . simp [hsame]
      . simp at happly
    . simp at happly
  . rintro _ h ⟨hh, hnot⟩
    refine ⟨hh, ?_⟩
    rintro ⟨hpermits, hnone⟩
    refine hnot ⟨hpermits, ?_⟩
    obtain ⟨i, hi, _⟩ := isTunnel_eq_true hh.tunnel
    have hroute := hh.routes t d
    rw [if_neg hnew, hnone] at hroute
    rw [hc, Command.addInterfaceRoute, dif_pos (by rw [hi]; rfl), Command.addRoute, hroute]
    rfl

theorem runSudo_ipRuleAdd (rule : Rule)
    : (runSudo env (.ipRuleAdd rule)).Spec (Tunnel k iface through)
        (fun _ h => Tunnel (k.addRule rule) iface through h ∧ env.permits (.ipRuleAdd rule) = true)
        (fun _ h => Tunnel k iface through h ∧ ¬env.permits (.ipRuleAdd rule) = true) := by
  apply (runSudo_spec (Tunnel k iface through) (.ipRuleAdd rule)).conseq (fun _ h => h)
  . rintro _ h' ⟨h, hh, hpermits, happly⟩
    cases happly
    exact ⟨⟨hh.base.addRule rule, hh.tunnel, hh.routes⟩, hpermits⟩
  . rintro _ h ⟨hh, hnot⟩
    exact ⟨hh, fun hpermits => hnot ⟨hpermits, rfl⟩⟩

def withServerRoute (k : Host) (serverIp gw : String) : Host :=
  k.addRoute mainTable (.host serverIp) (.gateway gw) (k.isSome_of_gateway gw)

theorem runSudo_routeAddHost
    : (runSudo env (.routeAddHost serverIp gw)).Spec (Tunnel k iface [])
        (fun _ h => Tunnel (withServerRoute k serverIp gw) iface [] h
          ∧ (env.permits (.routeAddHost serverIp gw) = true
            ∧ k.routes mainTable (.host serverIp) = none))
        (fun _ h => Tunnel k iface [] h
          ∧ ¬(env.permits (.routeAddHost serverIp gw) = true
            ∧ k.routes mainTable (.host serverIp) = none)) := by
  apply (runSudo_spec (Tunnel k iface []) (.routeAddHost serverIp gw)).conseq (fun _ h => h)
  . rintro _ h' ⟨h, hh, hpermits, happly⟩
    have hroute := hh.routes mainTable (.host serverIp)
    rw [if_neg List.not_mem_nil] at hroute
    rw [Command.apply, Command.addRoute] at happly
    split at happly
    . next hnone =>
      cases happly
      rw [Option.isNone_iff_eq_none] at hnone
      refine ⟨⟨hh.base.addGatewayRoute _ _, hh.tunnel, ?_⟩, hpermits, hroute.symm.trans hnone⟩
      intro t d
      have hsame := hh.routes t d
      rw [if_neg List.not_mem_nil] at hsame
      simp only [withServerRoute, Host.addRoute, List.not_mem_nil, if_false, hsame]
    . simp at happly
  . rintro _ h ⟨hh, hnot⟩
    refine ⟨hh, ?_⟩
    rintro ⟨hpermits, hnone⟩
    refine hnot ⟨hpermits, ?_⟩
    have hroute := hh.routes mainTable (.host serverIp)
    rw [if_neg List.not_mem_nil, hnone] at hroute
    rw [Command.apply, Command.addRoute, hroute]
    rfl

/--
The first command that changes a route or a rule takes effect.
-/
def RoutingStarts (p : Platform) (env : Env) (iface serverIp gw : String) (k : Host) : Prop :=
  match p with
  | .macos =>
    env.permits (.routeAddHost serverIp gw) = true ∧ k.routes mainTable (.host serverIp) = none
  | .linux =>
    env.permits (.wgSetFwmark iface fwmark) = true ∧ env.permits (.ipRuleAdd tunnelRule) = true
  | .other => False

def RoutingContinues (p : Platform) (env : Env) (iface : String) (k : Host) : Prop :=
  match p with
  | .macos =>
    (env.permits (.routeAddNet "0.0.0.0/1" iface) = true
        ∧ k.routes mainTable (.net "0.0.0.0/1") = none)
      ∧ env.permits (.routeAddNet "128.0.0.0/1" iface) = true
        ∧ k.routes mainTable (.net "128.0.0.0/1") = none
  | .linux =>
    (env.permits (.ipRouteAddDefault iface fwmark) = true ∧ k.routes fwmark .default = none)
      ∧ env.permits (.ipRuleAdd suppressRule) = true
  | .other => False

def afterStart (p : Platform) (serverIp gw : String) (k : Host) : Host :=
  match p with
  | .macos => withServerRoute k serverIp gw
  | .linux => k.addRule tunnelRule
  | .other => k

def Routed (p : Platform) (iface serverIp gw : String) (k h : Host) : Prop :=
  match p with
  | .macos =>
    Tunnel (withServerRoute k serverIp gw) iface
      [(mainTable, .net "128.0.0.0/1"), (mainTable, .net "0.0.0.0/1")] h
  | .linux =>
    Tunnel ((k.addRule tunnelRule).addRule suppressRule) iface [(fwmark, .default)] h
  | .other => False

theorem configureFullTunnel_spec (hk : Quiet k)
    : (configureFullTunnel p env iface serverIp gw).Spec (Tunnel k iface [])
        (fun _ h => Routed p iface serverIp gw k h
          ∧ RoutingStarts p env iface serverIp gw k ∧ RoutingContinues p env iface k)
        (fun _ h =>
          (∃ through, Tunnel k iface through h) ∧ ¬RoutingStarts p env iface serverIp gw k
            ∨
          (∃ through, Tunnel (afterStart p serverIp gw k) iface through h)
            ∧ RoutingStarts p env iface serverIp gw k ∧ ¬RoutingContinues p env iface k) := by
  cases p with
  | macos =>
    refine runSudo_routeAddHost.bind_of (fun _ h hh => .inl ⟨⟨[], hh.1⟩, hh.2⟩) fun _ =>
      .of_and fun hstarts => ?_
    refine (runSudo_addInterfaceRoute mainTable (.net "0.0.0.0/1") List.not_mem_nil
      fun _ => rfl).bind_of
      (fun _ h hh => .inr ⟨⟨[], hh.1⟩, hstarts, fun hcontinues => hh.2 hcontinues.1⟩) fun _ =>
      .of_and fun hfirst => ?_
    refine (runSudo_addInterfaceRoute mainTable (.net "128.0.0.0/1") (by decide)
      fun _ => rfl).conseq (fun _ h => h) ?_ ?_
    . exact fun _ h hh => ⟨hh.1, hstarts, hfirst, hh.2⟩
    . exact fun _ h hh => .inr ⟨⟨_, hh.1⟩, hstarts, fun hcontinues => hh.2 hcontinues.2⟩
  | linux =>
    refine (decides_updateInterface hk (fun i => { i with fwmark := some fwmark }) (fun _ => rfl)
      fun _ => rfl).bind_of (fun _ h hh => .inl ⟨⟨[], hh.1⟩, fun hstarts => hh.2 hstarts.1⟩) fun _ =>
      .of_and fun hfwmark => ?_
    refine (runSudo_ipRuleAdd tunnelRule).bind_of
      (fun _ h hh => .inl ⟨⟨[], hh.1⟩, fun hstarts => hh.2 hstarts.2⟩) fun _ =>
      .of_and fun hrule => ?_
    have hstarts : RoutingStarts .linux env iface serverIp gw k := ⟨hfwmark, hrule⟩
    refine (runSudo_addInterfaceRoute fwmark .default List.not_mem_nil fun _ => rfl).bind_of
      (fun _ h hh => .inr ⟨⟨[], hh.1⟩, hstarts, fun hcontinues => hh.2 hcontinues.1⟩) fun _ =>
      .of_and fun hroute => ?_
    refine (runSudo_ipRuleAdd suppressRule).conseq (fun _ h => h) ?_ ?_
    . exact fun _ h hh => ⟨hh.1, hstarts, hroute, hh.2⟩
    . exact fun _ h hh => .inr ⟨⟨_, hh.1⟩, hstarts, fun hcontinues => hh.2 hcontinues.2⟩
  | other => exact Attempt.Spec.fail fun h hh => .inl ⟨⟨[], hh⟩, not_false⟩

theorem Tunnel.routeDeleteNet {cidr : String} (htunnel : Tunnel k iface through h)
    (hmem : (mainTable, .net cidr) ∈ through) (hnone : k.routes mainTable (.net cidr) = none)
    : Tunnel k iface (through.filter (· ≠ (mainTable, .net cidr)))
        (teardown h (.routeDeleteNet cidr iface)) := by
  have hroute := htunnel.routes mainTable (.net cidr)
  rw [if_pos hmem] at hroute
  have hdelete : teardown h (.routeDeleteNet cidr iface)
      = h.removeRoutes fun table dest => table = mainTable ∧ dest = .net cidr := by
    rw [teardown, Command.apply, if_pos hroute]
    rfl
  rw [hdelete]
  refine ⟨htunnel.base.removeTunnelRoutes ?_, htunnel.tunnel, ?_⟩
  . intro t d hgone
    obtain ⟨rfl, rfl⟩ := of_decide_eq_true hgone
    exact hnone
  . intro t d
    simp only [Host.removeRoutes, decide_eq_true_eq, htunnel.routes t d, List.mem_filter, ne_eq,
      Prod.mk.injEq]
    by_cases hsame : t = mainTable ∧ d = .net cidr
    . obtain ⟨rfl, rfl⟩ := hsame
      simp [hnone]
    . simp [hsame]

theorem Over.ipRuleDelete (hover : Over k h) (rule : Rule) (hrule : k.rules rule ≠ 0)
    : Over (k.deleteRule rule) (teardown h (.ipRuleDelete rule)) := by
  rw [← hover.rules] at hrule
  rw [teardown, Command.apply, if_pos hrule]
  exact hover.deleteRule rule

/--
What is left of a host when nothing is routed through the tunnel any more.
-/
def unrouted (p : Platform) (k : Host) : Host :=
  match p with
  | .linux => k.removeRoutes fun t _ => t = fwmark
  | _ => k

theorem Routed.teardownRoutes (hrouted : Routed p iface serverIp gw k h)
    (hstarts : RoutingStarts p env iface serverIp gw k) (hcontinues : RoutingContinues p env iface k)
    : Over (unrouted p k) (teardownRoutes p iface serverIp h) := by
  cases p with
  | macos =>
    have hnone : ∀ cidr, k.routes mainTable (.net cidr) = none →
        (withServerRoute k serverIp gw).routes mainTable (.net cidr) = none := fun _ h => h
    have hfirst := Tunnel.routeDeleteNet hrouted (by decide) (hnone _ hcontinues.1.2)
    have hsecond := hfirst.routeDeleteNet (by decide) (hnone "128.0.0.0/1" hcontinues.2.2)
    have hserver := hsecond.routes mainTable (.host serverIp)
    rw [if_neg (by simp)] at hserver
    have hdelete : ∀ h : Host, (h.routes mainTable (.host serverIp)).isSome →
        teardown h (.routeDeleteHost serverIp)
          = h.removeRoutes fun table dest => table = mainTable ∧ dest = .host serverIp := by
      intro h hsome
      rw [teardown, Command.apply, if_pos hsome]
      rfl
    rw [Client.teardownRoutes, List.foldl_cons, List.foldl_cons, List.foldl_cons, List.foldl_nil, hdelete]
    . exact (hsecond.base.removeRoutes _).congr (sameConfig_addRoute _ hstarts.2) rfl
    . rw [hserver]
      simp [withServerRoute, Host.addRoute]
  | linux =>
    have hne : tunnelRule ≠ suppressRule := by decide
    have hfirst := hrouted.base.ipRuleDelete tunnelRule
      (by simp [Host.addRule, Function.update_of_ne hne])
    have hsecond := hfirst.ipRuleDelete suppressRule
      (by simp [Host.addRule, Host.deleteRule, Function.update_of_ne hne.symm])
    refine (hsecond.removeRoutes fun t _ => t = fwmark).congr ⟨rfl, rfl, ?_, rfl⟩ rfl
    funext rule
    simp only [unrouted, Host.removeRoutes, Host.addRule, Host.deleteRule, Function.update_apply]
    by_cases htunnel : rule = tunnelRule
    . simp [htunnel, hne]
    . by_cases hsuppress : rule = suppressRule
      . simp [hsuppress, hne.symm]
      . simp [htunnel, hsuppress]
  | other => exact hrouted.elim

end Routes

end Client
