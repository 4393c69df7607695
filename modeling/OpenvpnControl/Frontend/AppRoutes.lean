import OpenvpnControl.Library.Uri

/-!
# The links of the panel

`appRoutes.ts` builds the links of the panel in one table and parses them in another. A link carries
ids in its path and a tab or a token in its query.

## Main definitions

* `parseAppRoute`: the page of a path and a query.
* `withQuery`, `serverDetail`, ..., `resetAdminPassword`: the builders that take parameters.
* `Link`: a builder with its parameters; `Link.page` is where it points.

## Main results

* `pickTab_withQuery`: a tab is read back, also when it is left out as the default.
* `leadsTo_page`: a link leads to its page.
* `links_lead_back`: so different links have different URLs.
-/

namespace OpenvpnControl.Frontend

open Uri (encodeURIComponent decodeURIComponent getParam parseQuery formEncode)

/-! ### Parsing -/

def serverTabs : List String :=
  ["overview", "agent", "monitoring", "sessions", "certificates", "ca-center",
    "keys", "settings", "firewall", "service", "services", "dns", "journal"]

def userTabs : List String := ["overview", "sessions", "certs", "vpn", "ccd", "firewall"]

def organizationTabs : List String := ["overview", "firewall"]

def logsViews : List String := ["vpn-ip", "source-ip", "admin"]

def documentationSections : List String :=
  ["intro", "concepts", "interface", "servers", "working-with-node",
    "dns-firewall", "users-organizations", "logs-tasks", "panel-settings",
    "agent-security", "troubleshooting"]

structure AppRouteState where
  primaryNav : String
  serversView : String
  selectedServerId : String
  serverDetailTab : String
  serverCenterCertId : String
  organizationsView : String
  organizationEditId : String
  organizationEditTab : String
  usersSub : String
  selectedUserId : String
  userProfileTab : String
  caRootWizard : Option String
  selectedRootCaId : String
  selectedCertId : String
  rootCaProfileTab : String
  certProfileTab : String
  adminsPage : String
  selectedAdminId : String
  tasksView : String
  logsView : String
  docsSection : String
  settingsSection : String
  inviteAdminToken : String
  resetAdminPasswordToken : String
  deriving DecidableEq, Repr

/-- `base` of `parseAppRoute`. -/
def baseRoute : AppRouteState where
  primaryNav := "servers"
  serversView := "list"
  selectedServerId := ""
  serverDetailTab := "overview"
  serverCenterCertId := ""
  organizationsView := "list"
  organizationEditId := ""
  organizationEditTab := "overview"
  usersSub := "list"
  selectedUserId := ""
  userProfileTab := "overview"
  caRootWizard := none
  selectedRootCaId := ""
  selectedCertId := ""
  rootCaProfileTab := "overview"
  certProfileTab := "overview"
  adminsPage := "list"
  selectedAdminId := ""
  tasksView := "list"
  logsView := "vpn-ip"
  docsSection := "intro"
  settingsSection := "admins"
  inviteAdminToken := ""
  resetAdminPasswordToken := ""

def pickTab (value : Option String) (allowed : List String) (fallback : String) : String :=
  let v := JsStrings.trim (value.getD "")
  if v ∈ allowed then v else fallback

/-- The parts of a path between its slashes. -/
def segments (pathname : String) : List String :=
  let trimmed := String.ofList (pathname.toList.rdropWhile (· = '/'))
  let path := if trimmed = "" then "/" else trimmed
  (GoStrings.split path '/').filter (· ≠ "")

/-- `parseAppRoute`, where `none` is the `URIError` of an id that cannot be decoded. -/
def parseAppRoute (pathname search : String) : Option AppRouteState :=
  let sp := parseQuery search
  let seg := segments pathname
  if seg[0]? = some "reset-admin-password" then
    some { baseRoute with
      primaryNav := "resetAdminPassword", resetAdminPasswordToken := (getParam sp "token").getD "" }
  else if seg[0]? = some "invite-admin" then
    some { baseRoute with
      primaryNav := "inviteAdmin", inviteAdminToken := (getParam sp "token").getD "" }
  else if seg = ["profile"] then some { baseRoute with primaryNav := "myProfile" }
  else if seg = [] ∨ seg = ["servers"] then
    some { baseRoute with primaryNav := "servers", serversView := "list" }
  else if seg[0]? = some "servers" ∧ seg[1]? = some "new" then
    some { baseRoute with primaryNav := "servers", serversView := "add" }
  else if seg[0]? = some "servers" ∧ 2 ≤ seg.length then
    (decodeURIComponent (seg[1]?.getD "")).map fun id =>
      { baseRoute with
        primaryNav := "servers"
        serversView := "detail"
        selectedServerId := id
        serverDetailTab := pickTab (getParam sp "tab") serverTabs "overview"
        serverCenterCertId := (getParam sp "certId").getD "" }
  else if seg = ["organizations"] then
    some { baseRoute with primaryNav := "organizations", organizationsView := "list" }
  else if seg[0]? = some "organizations" ∧ seg[1]? = some "new" then
    some { baseRoute with primaryNav := "organizations", organizationsView := "add" }
  else if seg[0]? = some "organizations" ∧ seg[2]? = some "edit" then
    (decodeURIComponent (seg[1]?.getD "")).map fun id =>
      { baseRoute with
        primaryNav := "organizations"
        organizationsView := "edit"
        organizationEditId := id
        organizationEditTab := pickTab (getParam sp "tab") organizationTabs "overview" }
  else if seg = ["users"] then some { baseRoute with primaryNav := "users", usersSub := "list" }
  else if seg[0]? = some "users" ∧ seg[1]? = some "new" then
    some { baseRoute with primaryNav := "users", usersSub := "add" }
  else if seg[0]? = some "users" then
    (decodeURIComponent (seg[1]?.getD "")).map fun id =>
      { baseRoute with
        primaryNav := "users"
        usersSub := "profile"
        selectedUserId := id
        userProfileTab := pickTab (getParam sp "tab") userTabs "overview" }
  else if seg[0]? = some "ca" then
    some { baseRoute with primaryNav := "servers", serversView := "list" }
  else if seg[0]? = some "settings" ∧ seg[1]? = some "profile" then
    some { baseRoute with primaryNav := "myProfile" }
  else if seg[0]? = some "settings" ∧ seg[1]? = some "backup" then
    some { baseRoute with
      primaryNav := "settings", settingsSection := "backup"
      adminsPage := "list", selectedAdminId := "" }
  else if seg[0]? = some "settings" ∧ seg[1]? = some "restore" then
    some { baseRoute with
      primaryNav := "settings", settingsSection := "restore"
      adminsPage := "list", selectedAdminId := "" }
  else if seg[0]? = some "settings" ∧ 3 ≤ seg.length ∧ seg[1]? = some "admins" ∧
    seg[2]? = some "new" then
    some { baseRoute with
      primaryNav := "settings", settingsSection := "admins"
      adminsPage := "list", selectedAdminId := "" }
  else if seg[0]? = some "settings" ∧ 3 ≤ seg.length ∧ seg[1]? = some "admins" then
    (decodeURIComponent (seg[2]?.getD "")).map fun id =>
      { baseRoute with
        primaryNav := "settings", settingsSection := "admins"
        adminsPage := "detail", selectedAdminId := id }
  else if seg[0]? = some "settings" then
    some { baseRoute with
      primaryNav := "settings", settingsSection := "admins"
      adminsPage := "list", selectedAdminId := "" }
  else if seg[0]? = some "logs" then
    some { baseRoute with
      primaryNav := "logs", logsView := pickTab (getParam sp "tab") logsViews "vpn-ip" }
  else if seg[0]? = some "tasks" then
    some { baseRoute with primaryNav := "tasks", tasksView := "list" }
  else if seg[0]? = some "documentation" ∨ seg[0]? = some "docs" then
    some { baseRoute with
      primaryNav := "documentation"
      docsSection := pickTab (getParam sp "section") documentationSections "intro" }
  else some { baseRoute with primaryNav := "servers", serversView := "list" }

/-! ### Building -/

def withQuery (base tabKey tabVal defaultTab : String) : String :=
  if tabVal = "" ∨ tabVal = defaultTab then base
  else base ++ "?" ++ formEncode tabKey ++ "=" ++ formEncode tabVal

/-- `paths.serverDetail`. -/
def serverDetail (id tab : String) : String :=
  withQuery ("/servers/" ++ encodeURIComponent id) "tab" tab "overview"

/-- `paths.serverCaCenterCert`. -/
def serverCaCenterCert (id certId : String) : String :=
  "/servers/" ++ encodeURIComponent id ++ "?tab=ca-center&certId=" ++ encodeURIComponent certId

/-- `paths.organizationEdit`. -/
def organizationEdit (id tab : String) : String :=
  withQuery ("/organizations/" ++ encodeURIComponent id ++ "/edit") "tab" tab "overview"

/-- `paths.userProfile`. -/
def userProfile (id tab : String) : String :=
  withQuery ("/users/" ++ encodeURIComponent id) "tab" tab "overview"

/-- `paths.settingsAdmin`. -/
def settingsAdmin (id : String) : String := "/settings/admins/" ++ encodeURIComponent id

/-- `paths.logs`. -/
def logs (tab : String) : String := withQuery "/logs" "tab" tab "vpn-ip"

/-- `paths.documentation`. -/
def documentation (docsSection : String) : String :=
  withQuery "/documentation" "section" docsSection "intro"

/-- `paths.inviteAdmin`. -/
def inviteAdmin (token : String) : String := "/invite-admin?token=" ++ encodeURIComponent token

/-- `paths.resetAdminPassword`. -/
def resetAdminPassword (token : String) : String := "/reset-admin-password?token=" ++
    encodeURIComponent token

/-- A builder and its parameters. -/
inductive Link where
  | serverDetail (id tab : String)
  | serverCaCenterCert (id certId : String)
  | organizationEdit (id tab : String)
  | userProfile (id tab : String)
  | settingsAdmin (id : String)
  | logs (tab : String)
  | documentation (docsSection : String)
  | inviteAdmin (token : String)
  | resetAdminPassword (token : String)
  deriving DecidableEq, Repr

def Link.url : Link → String
  | .serverDetail id tab => Frontend.serverDetail id tab
  | .serverCaCenterCert id certId => Frontend.serverCaCenterCert id certId
  | .organizationEdit id tab => Frontend.organizationEdit id tab
  | .userProfile id tab => Frontend.userProfile id tab
  | .settingsAdmin id => Frontend.settingsAdmin id
  | .logs tab => Frontend.logs tab
  | .documentation docsSection => Frontend.documentation docsSection
  | .inviteAdmin token => Frontend.inviteAdmin token
  | .resetAdminPassword token => Frontend.resetAdminPassword token

/-- An id that a path can have: `new` is a page of its own. -/
def IsId (id : String) : Prop := id ≠ "" ∧ id ≠ "new"

/-- The parameters that a builder is for. -/
def Link.Valid : Link → Prop
  | .serverDetail id tab => IsId id ∧ tab ∈ serverTabs
  | .serverCaCenterCert id certId => IsId id ∧ certId ≠ ""
  | .organizationEdit id tab => IsId id ∧ tab ∈ organizationTabs
  | .userProfile id tab => IsId id ∧ tab ∈ userTabs
  | .settingsAdmin id => IsId id
  | .logs tab => tab ∈ logsViews
  | .documentation docsSection => docsSection ∈ documentationSections
  | .inviteAdmin token => token ≠ ""
  | .resetAdminPassword token => token ≠ ""

/-- The page that a link points to. -/
def Link.page : Link → AppRouteState
  | .serverDetail id tab =>
    { baseRoute with
      primaryNav := "servers", serversView := "detail"
      selectedServerId := id, serverDetailTab := tab }
  | .serverCaCenterCert id certId =>
    { baseRoute with
      primaryNav := "servers", serversView := "detail"
      selectedServerId := id, serverDetailTab := "ca-center"
      serverCenterCertId := certId }
  | .organizationEdit id tab =>
    { baseRoute with
      primaryNav := "organizations", organizationsView := "edit", organizationEditId := id
      organizationEditTab := tab }
  | .userProfile id tab =>
    { baseRoute with
      primaryNav := "users", usersSub := "profile", selectedUserId := id, userProfileTab := tab }
  | .settingsAdmin id =>
    { baseRoute with primaryNav := "settings", adminsPage := "detail", selectedAdminId := id }
  | .logs tab => { baseRoute with primaryNav := "logs", logsView := tab }
  | .documentation docsSection =>
    { baseRoute with primaryNav := "documentation", docsSection := docsSection }
  | .inviteAdmin token => { baseRoute with primaryNav := "inviteAdmin", inviteAdminToken := token }
  | .resetAdminPassword token =>
    { baseRoute with primaryNav := "resetAdminPassword", resetAdminPasswordToken := token }

/-! ### Paths -/

/-- A part of a path. -/
def IsSegment (s : String) : Prop := s ≠ "" ∧ '/' ∉ s.toList ∧ '?' ∉ s.toList

instance (s : String) : Decidable (IsSegment s) := inferInstanceAs (Decidable (_ ∧ _ ∧ _))

/-- The path with the parts. -/
def pathOf (parts : List String) : String := "/" ++ "/".intercalate parts

theorem pathOf_single (a : String) : pathOf [a] = "/" ++ a := by
  rw [pathOf, String.intercalate_singleton]

theorem pathOf_pair (a b : String) : pathOf [a, b] = "/" ++ a ++ "/" ++ b := by
  rw [pathOf, String.intercalate_cons_of_ne_nil (List.cons_ne_nil b []),
    String.intercalate_singleton]
  simp only [String.append_assoc]

theorem pathOf_triple (a b c : String) : pathOf [a, b, c] = "/" ++ a ++ "/" ++ b ++ "/" ++ c := by
  rw [pathOf, String.intercalate_cons_of_ne_nil (List.cons_ne_nil b [c]),
    String.intercalate_cons_of_ne_nil (List.cons_ne_nil c []), String.intercalate_singleton]
  simp only [String.append_assoc]

/-- The last character of joined parts is one of the last part. -/
theorem exists_last_intercalate {parts : List String} (hne : parts ≠ [])
    (h : ∀ s ∈ parts, IsSegment s) :
    ∃ l c, ("/".intercalate parts).toList = l ++ [c] ∧ c ≠ '/' := by
  induction parts with
  | nil => exact absurd rfl hne
  | cons s parts ih =>
    rw [List.forall_mem_cons] at h
    cases parts with
    | nil =>
      have hs : s.toList ≠ [] := fun h' => h.1.1 (String.toList_inj.1 h')
      refine ⟨s.toList.dropLast, s.toList.getLast hs, ?_, ?_⟩
      · rw [String.intercalate_singleton, List.dropLast_concat_getLast]
      · exact ne_of_mem_of_not_mem (List.getLast_mem hs) h.1.2.1
    | cons t parts =>
      obtain ⟨l, c, hl, hc⟩ := ih (List.cons_ne_nil t parts) h.2
      refine ⟨s.toList ++ '/' :: l, c, ?_, hc⟩
      rw [String.intercalate_cons_of_ne_nil (List.cons_ne_nil t parts), String.toList_append, hl]
      simp

/-- **The parts of a path** are read back. -/
theorem segments_pathOf {parts : List String} (hne : parts ≠ []) (h : ∀ s ∈ parts, IsSegment s) :
    segments (pathOf parts) = parts := by
  obtain ⟨l, c, hl, hc⟩ := exists_last_intercalate hne h
  have htrim : String.ofList ((pathOf parts).toList.rdropWhile (· = '/')) = pathOf parts := by
    have hlist : (pathOf parts).toList = ('/' :: l) ++ [c] := by
      rw [pathOf, String.toList_append, hl]
      rfl
    rw [hlist, List.rdropWhile_concat_neg _ _ _ (by simpa using hc), ← hlist, String.ofList_toList]
  have hsplit : GoStrings.split (pathOf parts) '/' = "" :: parts := by
    have hjoin : pathOf parts = "" ++ String.singleton '/' ++
        (String.singleton '/').intercalate parts := by
      rw [String.empty_append]
      rfl
    have hparts : parts.flatMap (GoStrings.split · '/') = parts := by
      clear htrim hl hjoin hne
      induction parts with
      | nil => rfl
      | cons s parts ih =>
        rw [List.forall_mem_cons] at h
        rw [List.flatMap_cons, GoStrings.split_of_not_mem h.1.2.1, ih h.2, List.singleton_append]
    rw [hjoin, GoStrings.split_append, GoStrings.split_intercalate hne, hparts,
      @GoStrings.split_of_not_mem "" '/' (by simp), List.singleton_append]
  have hne' : pathOf parts ≠ "" := fun hempty => by
    rw [hempty] at hsplit
    have := congrArg List.length hsplit
    rw [@GoStrings.split_of_not_mem "" '/' (by simp), List.length_singleton,
      List.length_cons] at this
    exact hne (List.length_eq_zero_iff.1 (by omega))
  simp only [segments, htrim, if_neg hne', hsplit]
  rw [List.filter_cons_of_neg (by simp),
    List.filter_eq_self.2 fun s hs => by simpa using (h s hs).1]

/-- A path has no question mark. -/
theorem not_mem_pathOf {parts : List String} (h : ∀ s ∈ parts, IsSegment s) :
    '?' ∉ (pathOf parts).toList := by
  rw [pathOf, String.toList_append, String.toList_intercalate]
  intro hmem
  obtain hmem | hmem := List.mem_append.1 hmem
  · exact absurd hmem (by decide)
  · obtain hslash | ⟨l, hl, hmem⟩ := GoStrings.mem_intercalateList hmem
    · exact absurd hslash (by decide)
    · obtain ⟨s, hs, rfl⟩ := List.mem_map.1 hl
      exact (h s hs).2.2 hmem

theorem isSegment_encode {id : String} (h : id ≠ "") : IsSegment (encodeURIComponent id) :=
  ⟨Uri.encodeURIComponent_ne_empty h, Uri.not_mem_encodeURIComponent (by decide) (by decide) id,
    Uri.not_mem_encodeURIComponent (by decide) (by decide) id⟩

theorem encode_ne_new {id : String} (h : id ≠ "new") : encodeURIComponent id ≠ "new" := by
  have hnew : encodeURIComponent "new" = "new" := Uri.encodeURIComponent_eq_self (by decide)
  rw [← hnew, ne_eq, Uri.encodeURIComponent_inj]
  exact h

/-! ### Tabs -/

/-- Names of small letters and hyphens. -/
def PlainTabs (allowed : List String) : Prop :=
  ∀ tab ∈ allowed, tab ≠ "" ∧ ∀ c ∈ tab.toList, (97 ≤ c.toNat ∧ c.toNat ≤ 122) ∨ c = '-'

instance (allowed : List String) : Decidable (PlainTabs allowed) :=
  inferInstanceAs (Decidable (∀ tab ∈ allowed, _ ∧ ∀ c ∈ tab.toList, _ ∨ _))

theorem formEncode_of_plain {s : String}
    (h : ∀ c ∈ s.toList, (97 ≤ c.toNat ∧ c.toNat ≤ 122) ∨ c = '-') :
    formEncode s = s ∧ encodeURIComponent s = s ∧ JsStrings.trim s = s := by
  have halnum {c : Char} (hc : 97 ≤ c.toNat ∧ c.toNat ≤ 122) : Uri.isAlnum c = true := by
    simp [Uri.isAlnum, hc.1, hc.2]
  have hkeep : ∀ c ∈ s.toList, (Uri.isAlnum c || c ∈ ['*', '-', '.', '_']) = true := fun c hc => by
    obtain hc | rfl := h c hc
    · rw [halnum hc, Bool.true_or]
    · decide
  have hlist : ∀ l : List Char, (∀ c ∈ l, (97 ≤ c.toNat ∧ c.toNat ≤ 122) ∨ c = '-') →
      (∀ c ∈ l, (Uri.isAlnum c || c ∈ ['*', '-', '.', '_']) = true) →
      (l.flatMap fun c => if c = ' ' then ['+'] else
        Uri.escape (fun c => Uri.isAlnum c || c ∈ ['*', '-', '.', '_']) [c]) = l := by
    intro l hl hk
    induction l with
    | nil => rfl
    | cons c l ih =>
      rw [List.forall_mem_cons] at hl hk
      have hspace : c ≠ ' ' := by
        rintro rfl
        exact absurd hl.1 (by decide)
      rw [List.flatMap_cons, if_neg hspace, ih hl.2 hk.2, Uri.escape,
        List.flatMap_singleton, if_pos hk.1, List.singleton_append]
  refine ⟨?_, Uri.encodeURIComponent_eq_self fun c hc => ?_, JsStrings.trim_eq_self fun c hc => ?_⟩
  · rw [formEncode, hlist _ h hkeep, String.ofList_toList]
  · obtain hc | rfl := h c hc
    · rw [Uri.isUnreserved, halnum hc, Bool.true_or]
    · decide
  · obtain hc | rfl := h c hc
    · simp [JsStrings.isSpace]
      omega
    · decide

/-- **A tab** of a link is read back, also when it is the default and left out. -/
theorem pickTab_withQuery {allowed : List String} (hplain : PlainTabs allowed) {parts : List String}
    (hparts : ∀ s ∈ parts, IsSegment s) {key tab fallback : String}
    (hkey : ∀ c ∈ key.toList, (97 ≤ c.toNat ∧ c.toNat ≤ 122) ∨ c = '-') (htab : tab ∈ allowed) :
    ∃ search, Uri.cut '?' (withQuery (pathOf parts) key tab fallback) = (pathOf parts, search) ∧
      pickTab (getParam (parseQuery search) key) allowed fallback = tab ∧
      ∀ other, other ≠ key → getParam (parseQuery search) other = none := by
  have hpath := not_mem_pathOf hparts
  have hempty : "" ∉ allowed := fun h => (hplain "" h).1 rfl
  rw [withQuery]
  split_ifs with hdefault
  · refine ⟨"", Uri.cut_of_not_mem hpath, ?_, fun other _ => ?_⟩
    · have htrim : JsStrings.trim "" = "" := by decide
      have hnone : getParam (parseQuery "") key = none := by
        rw [parseQuery]
        rfl
      obtain rfl := hdefault.resolve_left fun h => hempty (h ▸ htab)
      simp only [pickTab, hnone, Option.getD_none, htrim, if_neg hempty]
    · rw [parseQuery]
      rfl
  · obtain ⟨hformKey, hkeySelf, -⟩ := formEncode_of_plain hkey
    obtain ⟨hformTab, htabSelf, htrim⟩ := formEncode_of_plain (hplain tab htab).2
    have hquery : parseQuery (key ++ "=" ++ tab) = [(key, tab)] := by
      have h := Uri.parseQuery_intercalate (List.cons_ne_nil (key, tab) [])
      rwa [List.map_singleton, String.intercalate_singleton, Uri.paramText, hkeySelf, htabSelf] at h
    refine ⟨key ++ "=" ++ tab, ?_, ?_, fun other hother => ?_⟩
    · have hjoin : pathOf parts ++ "?" ++ formEncode key ++ "=" ++ formEncode tab =
          pathOf parts ++ String.singleton '?' ++ (key ++ "=" ++ tab) := by
        rw [hformKey, hformTab]
        simp only [String.append_assoc]
        rfl
      rw [hjoin, Uri.cut_append hpath]
    · simp only [hquery, getParam, List.lookup_cons, beq_self_eq_true, pickTab,
        Option.getD_some, htrim, if_pos htab]
    · rw [hquery, getParam, List.lookup_cons, beq_false_of_ne hother]
      rfl

/-! ### Links -/

/-- The URL leads to the page. -/
def LeadsTo (url : String) (page : AppRouteState) : Prop :=
  parseAppRoute (Uri.cut '?' url).1 (Uri.cut '?' url).2 = some page

theorem leadsTo_serverDetail {id tab : String} (hid : IsId id) (htab : tab ∈ serverTabs) :
    LeadsTo (serverDetail id tab) (Link.serverDetail id tab).page := by
  have hparts : ∀ s ∈ ["servers", encodeURIComponent id], IsSegment s :=
    List.forall_mem_cons.2 ⟨by decide, List.forall_mem_singleton.2 (isSegment_encode hid.1)⟩
  have hpath : "/servers/" ++ encodeURIComponent id =
      pathOf ["servers", encodeURIComponent id] := by
    have hliteral : "/servers/" = "/" ++ "servers" ++ "/" := by decide
    rw [pathOf_pair, hliteral]
  obtain ⟨search, hcut, hpick, hother⟩ :=
    @pickTab_withQuery serverTabs (by decide) _ hparts "tab" tab
    "overview" (by decide) htab
  rw [LeadsTo, serverDetail, hpath, hcut]
  simp only [parseAppRoute, segments_pathOf (List.cons_ne_nil _ _) hparts, hpick,
    hother "certId" (by decide)]
  simp [encode_ne_new hid.2, Uri.decodeURIComponent_encode, Link.page, baseRoute]

theorem leadsTo_serverCaCenterCert {id certId : String} (hid : IsId id) :
    LeadsTo (serverCaCenterCert id certId) (Link.serverCaCenterCert id certId).page := by
  have hparts : ∀ s ∈ ["servers", encodeURIComponent id], IsSegment s :=
    List.forall_mem_cons.2 ⟨by decide, List.forall_mem_singleton.2 (isSegment_encode hid.1)⟩
  have hquery : parseQuery ("tab=ca-center&certId=" ++ encodeURIComponent certId) =
      [("tab", "ca-center"), ("certId", certId)] := by
    have h :=
      Uri.parseQuery_intercalate (List.cons_ne_nil ("tab", "ca-center") [("certId", certId)])
    have htab : Uri.paramText ("tab", "ca-center") = "tab=ca-center" := by decide
    have hcert : Uri.paramText ("certId", certId) = "certId=" ++ encodeURIComponent certId := by
      rw [Uri.paramText, Uri.encodeURIComponent_eq_self (show ∀ c ∈ "certId".toList, _ by decide)]
      rfl
    rw [List.map_cons, List.map_singleton, String.intercalate_cons_of_ne_nil (List.cons_ne_nil _ _),
      String.intercalate_singleton, htab, hcert, ← String.append_assoc] at h
    exact h
  have hurl : serverCaCenterCert id certId = pathOf ["servers", encodeURIComponent id] ++
      String.singleton '?' ++ ("tab=ca-center&certId=" ++ encodeURIComponent certId) := by
    apply String.toList_inj.1
    simp [serverCaCenterCert, pathOf_pair]
  have hcert : getParam [("tab", "ca-center"), ("certId", certId)] "certId" = some certId := rfl
  have htab : getParam [("tab", "ca-center"), ("certId", certId)] "tab" = some "ca-center" := rfl
  have hpick : pickTab (some "ca-center") serverTabs "overview" = "ca-center" := by decide
  rw [LeadsTo, hurl, Uri.cut_append (not_mem_pathOf hparts)]
  simp only [parseAppRoute, segments_pathOf (List.cons_ne_nil _ _) hparts, hquery, hcert, htab]
  simp [hpick, encode_ne_new hid.2, Uri.decodeURIComponent_encode, Link.page, baseRoute]

theorem leadsTo_organizationEdit {id tab : String} (hid : IsId id) (htab : tab ∈ organizationTabs) :
    LeadsTo (organizationEdit id tab) (Link.organizationEdit id tab).page := by
  have hparts : ∀ s ∈ ["organizations", encodeURIComponent id, "edit"], IsSegment s :=
    List.forall_mem_cons.2 ⟨by decide, List.forall_mem_cons.2 ⟨isSegment_encode hid.1,
      List.forall_mem_singleton.2 (by decide)⟩⟩
  have hpath : "/organizations/" ++ encodeURIComponent id ++ "/edit" =
      pathOf ["organizations", encodeURIComponent id, "edit"] := by
    apply String.toList_inj.1
    simp [pathOf_triple]
  obtain ⟨search, hcut, hpick, -⟩ :=
    @pickTab_withQuery organizationTabs (by decide) _ hparts "tab" tab
    "overview" (by decide) htab
  rw [LeadsTo, organizationEdit, hpath, hcut]
  simp only [parseAppRoute, segments_pathOf (List.cons_ne_nil _ _) hparts, hpick]
  simp [encode_ne_new hid.2, Uri.decodeURIComponent_encode, Link.page, baseRoute]

theorem leadsTo_userProfile {id tab : String} (hid : IsId id) (htab : tab ∈ userTabs) :
    LeadsTo (userProfile id tab) (Link.userProfile id tab).page := by
  have hparts : ∀ s ∈ ["users", encodeURIComponent id], IsSegment s :=
    List.forall_mem_cons.2 ⟨by decide, List.forall_mem_singleton.2 (isSegment_encode hid.1)⟩
  have hpath : "/users/" ++ encodeURIComponent id = pathOf ["users", encodeURIComponent id] := by
    have hliteral : "/users/" = "/" ++ "users" ++ "/" := by decide
    rw [pathOf_pair, hliteral]
  obtain ⟨search, hcut, hpick, -⟩ := @pickTab_withQuery userTabs (by decide) _ hparts "tab" tab
    "overview" (by decide) htab
  rw [LeadsTo, userProfile, hpath, hcut]
  simp only [parseAppRoute, segments_pathOf (List.cons_ne_nil _ _) hparts, hpick]
  simp [encode_ne_new hid.2, Uri.decodeURIComponent_encode, Link.page, baseRoute]

theorem leadsTo_settingsAdmin {id : String} (hid : IsId id) :
    LeadsTo (settingsAdmin id) (Link.settingsAdmin id).page := by
  have hparts : ∀ s ∈ ["settings", "admins", encodeURIComponent id], IsSegment s :=
    List.forall_mem_cons.2 ⟨by decide, List.forall_mem_cons.2 ⟨by decide,
      List.forall_mem_singleton.2 (isSegment_encode hid.1)⟩⟩
  have hpath : settingsAdmin id = pathOf ["settings", "admins", encodeURIComponent id] := by
    have hliteral : "/settings/admins/" = "/" ++ "settings" ++ "/" ++ "admins" ++ "/" := by decide
    unfold settingsAdmin
    rw [hliteral, pathOf_triple]
  rw [LeadsTo, hpath, Uri.cut_of_not_mem (not_mem_pathOf hparts)]
  simp only [parseAppRoute, segments_pathOf (List.cons_ne_nil _ _) hparts]
  simp [encode_ne_new hid.2, Uri.decodeURIComponent_encode, Link.page, baseRoute]

theorem leadsTo_logs {tab : String} (htab : tab ∈ logsViews) :
    LeadsTo (logs tab) (Link.logs tab).page := by
  have hparts : ∀ s ∈ ["logs"], IsSegment s := List.forall_mem_singleton.2 (by decide)
  have hpath : "/logs" = pathOf ["logs"] := by decide
  obtain ⟨search, hcut, hpick, -⟩ := @pickTab_withQuery logsViews (by decide) _ hparts "tab" tab
    "vpn-ip" (by decide) htab
  rw [LeadsTo, logs, hpath, hcut]
  simp only [parseAppRoute, segments_pathOf (List.cons_ne_nil _ _) hparts, hpick]
  simp [Link.page, baseRoute]

theorem leadsTo_documentation {docsSection : String}
    (hsection : docsSection ∈ documentationSections) :
    LeadsTo (documentation docsSection) (Link.documentation docsSection).page := by
  have hparts : ∀ s ∈ ["documentation"], IsSegment s := List.forall_mem_singleton.2 (by decide)
  have hpath : "/documentation" = pathOf ["documentation"] := by decide
  obtain ⟨search, hcut, hpick, -⟩ :=
    @pickTab_withQuery documentationSections (by decide) _ hparts "section"
    docsSection "intro" (by decide) hsection
  rw [LeadsTo, documentation, hpath, hcut]
  simp only [parseAppRoute, segments_pathOf (List.cons_ne_nil _ _) hparts, hpick]
  simp [Link.page, baseRoute]

/-- The query of a token. -/
theorem parseQuery_token (token : String) :
    parseQuery ("token=" ++ encodeURIComponent token) = [("token", token)] := by
  have h := Uri.parseQuery_intercalate (List.cons_ne_nil ("token", token) [])
  rw [List.map_singleton, String.intercalate_singleton, Uri.paramText,
    Uri.encodeURIComponent_eq_self (show ∀ c ∈ "token".toList, _ by decide)] at h
  exact h

theorem leadsTo_inviteAdmin (token : String) :
    LeadsTo (inviteAdmin token) (Link.inviteAdmin token).page := by
  have hparts : ∀ s ∈ ["invite-admin"], IsSegment s := List.forall_mem_singleton.2 (by decide)
  have hurl : inviteAdmin token = pathOf ["invite-admin"] ++ String.singleton '?' ++
      ("token=" ++ encodeURIComponent token) := by
    have hliteral : "/invite-admin?token=" = "/" ++ "invite-admin" ++
      String.singleton '?' ++ "token=" := by decide
    unfold inviteAdmin
    rw [hliteral, pathOf_single, String.append_assoc]
  rw [LeadsTo, hurl, Uri.cut_append (not_mem_pathOf hparts)]
  simp only [parseAppRoute, segments_pathOf (List.cons_ne_nil _ _) hparts, parseQuery_token]
  simp [getParam, Link.page, baseRoute]

theorem leadsTo_resetAdminPassword (token : String) :
    LeadsTo (resetAdminPassword token) (Link.resetAdminPassword token).page := by
  have hparts : ∀ s ∈ ["reset-admin-password"], IsSegment s :=
    List.forall_mem_singleton.2 (by decide)
  have hurl : resetAdminPassword token = pathOf ["reset-admin-password"] ++ String.singleton '?' ++
      ("token=" ++ encodeURIComponent token) := by
    have hliteral : "/reset-admin-password?token=" = "/" ++ "reset-admin-password" ++
      String.singleton '?' ++ "token=" := by decide
    unfold resetAdminPassword
    rw [hliteral, pathOf_single, String.append_assoc]
  rw [LeadsTo, hurl, Uri.cut_append (not_mem_pathOf hparts)]
  simp only [parseAppRoute, segments_pathOf (List.cons_ne_nil _ _) hparts, parseQuery_token]
  simp [getParam, Link.page, baseRoute]

/-- **A link** leads to its page. -/
theorem leadsTo_page {l : Link} (h : l.Valid) : LeadsTo l.url l.page := by
  cases l with
  | serverDetail id tab => exact leadsTo_serverDetail h.1 h.2
  | serverCaCenterCert id certId => exact leadsTo_serverCaCenterCert h.1
  | organizationEdit id tab => exact leadsTo_organizationEdit h.1 h.2
  | userProfile id tab => exact leadsTo_userProfile h.1 h.2
  | settingsAdmin id => exact leadsTo_settingsAdmin h
  | logs tab => exact leadsTo_logs h
  | documentation docsSection => exact leadsTo_documentation h
  | inviteAdmin token => exact leadsTo_inviteAdmin token
  | resetAdminPassword token => exact leadsTo_resetAdminPassword token

/-- The link to a page. -/
def AppRouteState.link (s : AppRouteState) : Link :=
  if s.primaryNav = "servers" then
    if s.serverCenterCertId = "" then .serverDetail s.selectedServerId s.serverDetailTab
    else .serverCaCenterCert s.selectedServerId s.serverCenterCertId
  else if s.primaryNav = "organizations" then
    .organizationEdit s.organizationEditId s.organizationEditTab
  else if s.primaryNav = "users" then .userProfile s.selectedUserId s.userProfileTab
  else if s.primaryNav = "settings" then .settingsAdmin s.selectedAdminId
  else if s.primaryNav = "logs" then .logs s.logsView
  else if s.primaryNav = "documentation" then .documentation s.docsSection
  else if s.primaryNav = "inviteAdmin" then .inviteAdmin s.inviteAdminToken
  else .resetAdminPassword s.resetAdminPasswordToken

theorem link_page {l : Link} (h : l.Valid) : l.page.link = l := by
  cases l with
  | serverCaCenterCert id certId => simp [AppRouteState.link, Link.page, baseRoute, h.2]
  | _ => simp [AppRouteState.link, Link.page, baseRoute]

/-- **Every link leads back** to the page that it points to, and different links have different
URLs. The ids in a link are any texts that are not empty: encoding keeps the separators of the path
out of them, and decoding gives them back. -/
theorem links_lead_back : (∀ l : Link, l.Valid → LeadsTo l.url l.page) ∧
    ∀ l l' : Link, l.Valid → l'.Valid → l.url = l'.url → l = l' := by
  refine ⟨fun l h => leadsTo_page h, fun l l' h h' hurl => ?_⟩
  have hpage := (leadsTo_page h).symm.trans (hurl ▸ leadsTo_page h')
  rw [← link_page h, ← link_page h', Option.some.inj hpage]

end OpenvpnControl.Frontend
