/-
Which variables decide about which settings. Settings are read one after another, each from variables of its own, so
variables that agree on these are read alike; what is read last, the rules on scopes, can be read apart from the rest.
-/
import Mathlib
import Tollgate.Gateway.Settings

namespace Tollgate

/-! ## Results of reading -/

section Results

variable {ε α β : Type} {x : Except ε α} {b : β}

theorem bind_eq_ok_iff {f : α → Except ε β} : x >>= f = .ok b ↔ ∃ a, x = .ok a ∧ f a = .ok b := by
  cases x with
  | error e => exact iff_of_false nofun nofun
  | ok a => exact ⟨fun h => ⟨a, rfl, h⟩, fun ⟨_, ha, h⟩ => by cases ha; exact h⟩

theorem exists_of_map_eq_ok {f : α → β} (h : x.map f = .ok b) : ∃ a, x = .ok a ∧ f a = b := by
  cases x with
  | error e => cases h
  | ok a => exact ⟨a, rfl, Except.ok.inj h⟩

end Results

/-! ## Variables that are the same -/

namespace Variables

variable {v w : Variables} {key : String} (h : v key = w key)

include h

theorem value?_congr : v.value? key = w.value? key := by rw [value?, value?, h]

theorem url_congr : v.url key = w.url key := by rw [url, url, required, required, value?_congr h]

theorem read_congr {α : Type} (reader : List Char → Option α) (default : α) :
    v.read reader key default = w.read reader key default := by rw [read, read, value?_congr h]

theorem natural_congr (bits default : Nat) : v.natural bits key default = w.natural bits key default :=
  read_congr h _ _

theorem positive_congr (bits default : Nat) : v.positive bits key default = w.positive bits key default := by
  rw [positive, positive, natural_congr h]

theorem flag_congr (default : Bool) : v.flag key default = w.flag key default := read_congr h _ _

theorem list_congr (default : List String) : v.list key default = w.list key default := by
  rw [list, list, value?_congr h]

omit h

/-- Variables of which one has another value, or none. -/
def set (v : Variables) (key : String) (value : Option String) : Variables := fun k => if k = key then value else v k

theorem set_self (v : Variables) (key : String) (value : Option String) : v.set key value key = value := if_pos rfl

theorem set_of_ne (v : Variables) {key k : String} (value : Option String) (h : k ≠ key) : v.set key value k = v k :=
  if_neg h

end Variables

namespace Gateway.Settings

variable {v w : Variables}

/-! ## What settings were read from -/

/-- The parts of settings that were read. -/
theorem parts_of_read {s : Settings} (h : read v = .ok s) :
    readStore v = .ok s.store ∧ readBlockList v = .ok s.blockList ∧
      v.flag "TRUST_FORWARDED_FOR" false = .ok s.trustsForwarded ∧ readScopeRules v = .ok s.scopeRules ∧
      s.metricsToken = v.value? "METRICS_TOKEN" := by
  unfold read at h
  simp only [bind_eq_ok_iff] at h
  obtain ⟨_, -, _, -, _, -, _, -, _, -, _, -, store, hstore, _, -, blockList, hblock, trusts, htrusts, rules, hrules,
    hs⟩ := h
  cases hs
  exact ⟨hstore, hblock, htrusts, hrules, rfl⟩

/-- The endpoint that variables name, or the one that stands for it. -/
def endpointOf (v : Variables) : String := (v.value? "DENYLIST_ENDPOINT").getD "redis://127.0.0.1:6379"

theorem endpoint_of_readStore {s : StoreSettings} (h : readStore v = .ok s) : s.endpoint = endpointOf v := by
  unfold readStore at h
  simp only [bind_eq_ok_iff] at h
  obtain ⟨_, -, _, -, _, -, hs⟩ := h
  cases hs
  rfl

theorem whitelist_of_readBlockList {b : BlockList} (h : readBlockList v = .ok b) :
    b.whitelist = v.list "IP_WHITELIST" [] := by
  unfold readBlockList at h
  simp only [bind_eq_ok_iff] at h
  obtain ⟨_, -, _, -, _, -, _, -, _, -, _, -, _, -, hs⟩ := h
  cases hs
  rfl

/-! ## The variables of the parts -/

/-- The variables that the deny list is described by, but for the one that says where it is. -/
def storeKeys : List String := ["DENYLIST_BACKEND", "DENYLIST_DB", "DENYLIST_KEY_PREFIX", "DENYLIST_TIMEOUT_MS"]

theorem readStore_congr (h : ∀ key ∈ storeKeys, v key = w key) :
    readStore w = (fun s => { s with endpoint := endpointOf w }) <$> readStore v := by
  unfold readStore
  rw [Variables.read_congr (h "DENYLIST_BACKEND" (by decide)), Variables.read_congr (h "DENYLIST_DB" (by decide)),
    Variables.value?_congr (h "DENYLIST_KEY_PREFIX" (by decide)),
    Variables.natural_congr (h "DENYLIST_TIMEOUT_MS" (by decide))]
  simp only [map_bind, map_pure, endpointOf]

/-- The variables of the block list. -/
def blockListKeys : List String :=
  ["IP_BLOCKING_ENABLED", "IP_BLOCKING_ALLOW_LOCALHOST", "IP_VIOLATION_THRESHOLD", "IP_VIOLATION_WINDOW_SECS",
    "IP_BLOCK_DURATION_SECS", "IP_SUSPICIOUS_THRESHOLD", "IP_SUSPICIOUS_DURATION_SECS", "IP_WHITELIST"]

theorem readBlockList_congr (h : ∀ key ∈ blockListKeys, v key = w key) : readBlockList w = readBlockList v := by
  unfold readBlockList readBlockList.seconds
  dsimp only
  rw [Variables.flag_congr (h "IP_BLOCKING_ENABLED" (by decide)),
    Variables.flag_congr (h "IP_BLOCKING_ALLOW_LOCALHOST" (by decide)),
    Variables.positive_congr (h "IP_VIOLATION_THRESHOLD" (by decide)),
    Variables.positive_congr (h "IP_VIOLATION_WINDOW_SECS" (by decide)),
    Variables.positive_congr (h "IP_BLOCK_DURATION_SECS" (by decide)),
    Variables.positive_congr (h "IP_SUSPICIOUS_THRESHOLD" (by decide)),
    Variables.positive_congr (h "IP_SUSPICIOUS_DURATION_SECS" (by decide)),
    Variables.list_congr (h "IP_WHITELIST" (by decide))]

/-- The other variables that are read before the rules on scopes. -/
def plainKeys : List String :=
  ["UPSTREAM_URL", "JWKS_URL", "PORT", "UPSTREAM_TIMEOUT_SECS", "JWKS_MIN_REFRESH_SECS", "JWT_CLOCK_SKEW_SECS",
    "PUBLIC_PATH_PREFIXES", "RATE_LIMIT_RPM", "TRUST_FORWARDED_FOR"]

/-- The variables of all settings but the secret ones and the rules on scopes. -/
def openKeys : List String := plainKeys ++ storeKeys ++ blockListKeys

/-- Variables that agree on the open settings are read alike but for the secret ones, up to the rules on scopes. -/
theorem read_congr (h : ∀ key ∈ openKeys, v key = w key) (hrules : readScopeRules v = .ok []) :
    read w = read v >>= fun s => (fun rules => { s with
      store := { s.store with endpoint := endpointOf w }
      scopeRules := rules
      metricsToken := w.value? "METRICS_TOKEN" }) <$> readScopeRules w := by
  have hplain : ∀ key ∈ plainKeys, v key = w key := fun key hk => h key (by simp [openKeys, hk])
  have hstore : ∀ key ∈ storeKeys, v key = w key := fun key hk => h key (by simp [openKeys, hk])
  have hblock : ∀ key ∈ blockListKeys, v key = w key := fun key hk => h key (by simp [openKeys, hk])
  unfold read
  rw [readStore_congr hstore, readBlockList_congr hblock, hrules,
    Variables.url_congr (hplain "UPSTREAM_URL" (by decide)), Variables.url_congr (hplain "JWKS_URL" (by decide)),
    Variables.natural_congr (hplain "PORT" (by decide)),
    Variables.natural_congr (hplain "UPSTREAM_TIMEOUT_SECS" (by decide)),
    Variables.natural_congr (hplain "JWKS_MIN_REFRESH_SECS" (by decide)),
    Variables.natural_congr (hplain "JWT_CLOCK_SKEW_SECS" (by decide)),
    Variables.list_congr (hplain "PUBLIC_PATH_PREFIXES" (by decide)),
    Variables.positive_congr (hplain "RATE_LIMIT_RPM" (by decide)),
    Variables.flag_congr (hplain "TRUST_FORWARDED_FOR" (by decide))]
  have hok : (.ok [] : Except SettingsFault (List ScopeRule)) = pure [] := rfl
  simp only [bind_assoc, pure_bind, map_eq_pure_bind, hok]

/-- Where no rules on scopes are set there are none. -/
theorem readScopeRules_unset (v : Variables) : readScopeRules (v.set "SCOPE_RULES" none) = .ok [] := by
  unfold readScopeRules Variables.list Variables.value?
  rw [Variables.set_self]
  rfl

theorem ne_of_mem_openKeys {key : String} (h : key ∈ openKeys) :
    key ≠ "SCOPE_RULES" ∧ key ≠ "METRICS_TOKEN" ∧ key ≠ "DENYLIST_ENDPOINT" := by
  have hall : ∀ key ∈ openKeys, key ≠ "SCOPE_RULES" ∧ key ≠ "METRICS_TOKEN" ∧ key ≠ "DENYLIST_ENDPOINT" := by decide
  exact hall key h

/-- Rules on scopes are read after all other settings, and change none of these. -/
theorem read_set_rules (vars : Variables) (text : Option String) :
    read (vars.set "SCOPE_RULES" text) = read (vars.set "SCOPE_RULES" none) >>= fun s =>
      (fun rules => { s with scopeRules := rules }) <$> readScopeRules (vars.set "SCOPE_RULES" text) := by
  have hothers : ∀ key, key ≠ "SCOPE_RULES" → vars.set "SCOPE_RULES" none key = vars.set "SCOPE_RULES" text key :=
    fun key hk => by rw [vars.set_of_ne none hk, vars.set_of_ne text hk]
  rw [read_congr (fun key hk => hothers key (ne_of_mem_openKeys hk).1) (readScopeRules_unset vars)]
  cases hs : read (vars.set "SCOPE_RULES" none) with
  | error fault => rfl
  | ok s =>
    obtain ⟨hstore, -, -, -, htoken⟩ := parts_of_read hs
    have hendpoint := endpoint_of_readStore hstore
    unfold endpointOf at hendpoint ⊢
    rw [← Variables.value?_congr (hothers "METRICS_TOKEN" (by decide)), ← htoken,
      ← Variables.value?_congr (hothers "DENYLIST_ENDPOINT" (by decide)), ← hendpoint]
    rfl

end Gateway.Settings

end Tollgate
