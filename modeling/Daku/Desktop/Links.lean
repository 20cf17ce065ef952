import Daku.Base.Uri
import Daku.Desktop.DrillIn
import Mathlib.Data.List.TakeWhile

/-!
# Where links lead

Every link of a window stays on the host of the selected Environment, by
`src/dashboard_state.rs:907–967, 1335–1374, 1521–1533`, whatever the daemon sends; a link to an
Actions run is at least `https` without user information.
-/

namespace Daku.Desktop

open Daku.Base Daku.Protocol
open Daku.Health (EnvironmentSummary)

/-- The text is an `https` URL with this host and no user information. -/
def IsHttpsOn (host : List Char) (text : String) : Prop :=
  (UriParts.ofChars text.toList).scheme = some "https".toList ∧
    (UriParts.ofChars text.toList).authority = some ⟨none, host⟩

/-- A link stays on the host of the selected Environment. -/
def StaysOnHost (s : DashboardState) (link : String) : Prop :=
  ∃ e host, s.selected = some e ∧ host ≠ [] ∧ IsHttpsOn host e.instanceUrl ∧ IsHttpsOn host link

/-- A host and what may follow it. -/
structure HostAndPath (host path : List Char) : Prop where
  host_ne : host ≠ []
  plain : ∀ c ∈ ['/', '?', '#', '@'], c ∉ host
  path : path = [] ∨ path.head? = some '/'

section Hosts

variable {host path : List Char} {url : String}

/-- A part of the path up to a delimiter is rooted as the path is. -/
private theorem rooted_cutAt (sep : Char) (hsep : sep ≠ '/')
    (h : path = [] ∨ path.head? = some '/') :
    (cutAt sep path).1 = [] ∨ (cutAt sep path).1.head? = some '/' := by
  obtain rfl | h := h
  · exact Or.inl rfl
  · obtain ⟨rest, rfl⟩ := List.head?_eq_some_iff.mp h
    rw [cutAt, if_neg (Ne.symm hsep)]
    exact Or.inr rfl

/-- The host is the authority. -/
theorem HostAndPath.isHttpsOn (h : HostAndPath host path)
    (htext : url.toList = "https://".toList ++ (host ++ path)) : IsHttpsOn host url := by
  have hparts := @UriParts.ofChars_of_prefix "https".toList (host ++ path) (by decide) (by simp)
  have hcut : (cutAt '/' (cutAt '?' (cutAt '#' (host ++ path)).1).1).1 = host := by
    have hpath := rooted_cutAt '?' (by decide) (rooted_cutAt '#' (by decide) h.path)
    rw [cutAt_append_left (h.plain '#' (by decide)), cutAt_append_left (h.plain '?' (by decide)),
      cutAt_append_left (h.plain '/' (by decide))]
    dsimp only
    obtain hempty | hrooted := hpath
    · rw [hempty]
      exact List.append_nil host
    · obtain ⟨rest, hrest⟩ := List.head?_eq_some_iff.mp hrooted
      rw [hrest]
      exact List.append_nil host
  rw [hcut] at hparts
  have hauthority : Authority.ofChars host = ⟨none, host⟩ :=
    @Authority.ofChars_chars ⟨none, host⟩ (h.plain '@' (by decide))
  rw [hauthority] at hparts
  rw [IsHttpsOn, htext]
  exact hparts

/-- A supported URL has a host and a path. -/
theorem exists_hostAndPath (h : isSupportedInstanceUrl url = true) :
    ∃ host path, HostAndPath host path ∧ url.toList = "https://".toList ++ (host ++ path) := by
  rw [isSupportedInstanceUrl, Option.isNone_iff_eq_none, instanceUrlError] at h
  cases hrest : stripPrefix "https://" url with
  | none =>
    rw [hrest] at h
    cases h
  | some rest =>
    rw [hrest] at h
    dsimp only at h
    rw [splitChar_headD] at h
    split at h
    · cases h
    split at h
    · cases h
    split at h
    · cases h
    next hne hat hdelims =>
    rw [String.ofList_eq_empty_iff] at hne
    rw [containsChar, String.toList_ofList, List.contains_iff_mem] at hat
    rw [containsChar, containsChar, List.contains_iff_mem, List.contains_iff_mem, not_or] at hdelims
    refine ⟨(cutAt '/' rest.toList).1, follow '/' (cutAt '/' rest.toList).2, ⟨hne, ?_, ?_⟩, ?_⟩
    · intro c hc hmem
      simp only [List.mem_cons, List.not_mem_nil, or_false] at hc
      obtain rfl | rfl | rfl | rfl := hc
      · exact notMem_cutAt '/' _ hmem
      · exact hdelims.1 (mem_of_mem_cutAt hmem)
      · exact hdelims.2 (mem_of_mem_cutAt hmem)
      · exact hat hmem
    · cases (cutAt '/' rest.toList).2 with
      | none => exact Or.inl rfl
      | some _ => exact Or.inr rfl
    · rw [cutAt_join]
      exact stripPrefix_eq_some.mp hrest

/-- Trimmed slashes are slashes. -/
private theorem trimEndChar_join (c : Char) (s : String) :
    ∃ n, s.toList = (trimEndChar c s).toList ++ List.replicate n c := by
  have hjoin := List.takeWhile_append_dropWhile (p := (· = c)) (l := s.toList.reverse)
  refine ⟨(s.toList.reverse.takeWhile (· = c)).length, ?_⟩
  have hsame : s.toList.reverse.takeWhile (· = c) =
      List.replicate (s.toList.reverse.takeWhile (· = c)).length c := by
    rw [List.eq_replicate_iff]
    refine ⟨rfl, fun d hd ↦ ?_⟩
    have hslash := List.mem_takeWhile_imp hd
    exact of_decide_eq_true hslash
  have hreverse := congrArg List.reverse hjoin
  rw [List.reverse_append, List.reverse_reverse] at hreverse
  rw [trimEndChar, String.toList_ofList]
  rw [hsame, List.reverse_replicate] at hreverse
  exact hreverse.symm

/-- Anything rooted may follow the host and its path. -/
theorem HostAndPath.append (h : HostAndPath host path) {tail : List Char}
    (htail : tail = [] ∨ tail.head? = some '/') : HostAndPath host (path ++ tail) := by
  refine ⟨h.host_ne, h.plain, ?_⟩
  cases path with
  | nil => exact htail
  | cons c cs => exact Or.inr (h.path.resolve_left (List.cons_ne_nil c cs))

/-- Slashes at the end are none of the host's. -/
theorem exists_trimmed (h : HostAndPath host path)
    (htext : url.toList = "https://".toList ++ (host ++ path)) :
    ∃ path', HostAndPath host path' ∧
      (trimEndChar '/' url).toList = "https://".toList ++ (host ++ path') := by
  obtain ⟨n, hjoin⟩ := trimEndChar_join '/' url
  rw [htext, ← List.append_assoc] at hjoin
  obtain ⟨xs, hbase, hpath⟩ | ⟨xs, hbase, hslashes⟩ := List.append_eq_append_iff.mp hjoin
  · refine ⟨xs, ⟨h.host_ne, h.plain, ?_⟩, by rw [hbase, List.append_assoc]⟩
    cases xs with
    | nil => exact Or.inl rfl
    | cons c cs =>
      rw [hpath] at h
      exact Or.inr (h.path.resolve_left (List.cons_ne_nil _ _))
  · have hnone : xs = [] := by
      -- The last character of the host would be a slash.
      cases hlast : xs.getLast? with
      | none => exact List.getLast?_eq_none_iff.mp hlast
      | some d =>
        have hmem : d ∈ List.replicate n '/' := by
          rw [hslashes]
          exact List.mem_append_left _ (List.mem_of_getLast? hlast)
        have hxs : xs ≠ [] := List.ne_nil_of_mem (List.mem_of_getLast? hlast)
        have hend := congrArg List.getLast? hbase
        rw [List.getLast?_append_of_ne_nil _ h.host_ne, List.getLast?_append_of_ne_nil _ hxs,
          hlast, List.eq_of_mem_replicate hmem] at hend
        exact absurd (List.mem_of_getLast? hend) (h.plain '/' (by decide))
    refine ⟨[], ⟨h.host_ne, h.plain, Or.inl rfl⟩, ?_⟩
    rw [hnone, List.append_nil] at hbase
    rw [← hbase, List.append_nil]

/-- A link under a supported URL stays on its host. -/
theorem isHttpsOn_link (h : isSupportedInstanceUrl url = true) :
    ∃ host, host ≠ [] ∧ IsHttpsOn host url ∧
      ∀ tail : String, tail.toList.head? = some '/' →
        IsHttpsOn host (trimEndChar '/' url ++ tail) := by
  obtain ⟨host, path, hsplit, htext⟩ := exists_hostAndPath h
  obtain ⟨path', hsplit', htrimmed⟩ := exists_trimmed hsplit htext
  refine ⟨host, hsplit.host_ne, hsplit.isHttpsOn htext, fun tail htail ↦ ?_⟩
  apply (hsplit'.append (Or.inr htail)).isHttpsOn
  rw [String.toList_append, htrimmed, List.append_assoc, List.append_assoc]

/-- So does a link under a URL that is supported without the slashes at its end. -/
theorem isHttpsOn_link_of_trimmed (h : isSupportedInstanceUrl (trimEndChar '/' url) = true) :
    ∃ host, host ≠ [] ∧ IsHttpsOn host url ∧
      ∀ tail : String, tail.toList.head? = some '/' →
        IsHttpsOn host (trimEndChar '/' url ++ tail) := by
  obtain ⟨host, path, hsplit, htext⟩ := exists_hostAndPath h
  obtain ⟨n, hjoin⟩ := trimEndChar_join '/' url
  have hslashes : List.replicate n '/' = [] ∨ (List.replicate n '/').head? = some '/' := by
    cases n with
    | zero => exact Or.inl rfl
    | succ n => exact Or.inr rfl
  refine ⟨host, hsplit.host_ne, (hsplit.append hslashes).isHttpsOn ?_, fun tail htail ↦ ?_⟩
  · rw [hjoin, htext, List.append_assoc, List.append_assoc]
  · apply (hsplit.append (Or.inr htail)).isHttpsOn
    rw [String.toList_append, htext, List.append_assoc, List.append_assoc]

end Hosts

section Links

variable {s : DashboardState} {link : String}

/-- A link needs a selected Environment. -/
private theorem selected_of_bind {β : Type} {f : EnvironmentSummary → Option β} {b : β}
    (h : s.selected.bind f = some b) : ∃ e, s.selected = some e ∧ f e = some b :=
  Option.bind_eq_some_iff.mp h

/-- The paths of lists are rooted. -/
private theorem head?_listPath {signalId path : String} (h : listPath signalId = some path) :
    path.toList.head? = some '/' := by
  revert h
  rw [listPath.eq_def]
  split <;> intro h <;> cases h <;> exact congrArg List.head? String.toList_ofList

/-- A rooted path is rooted when it is encoded. -/
theorem head?_encodeQuery {path : String} (h : path.toList.head? = some '/') :
    (encodeQuery path).toList.head? = some '/' := by
  obtain ⟨rest, hrest⟩ := List.head?_eq_some_iff.mp h
  rw [encodeQuery, String.toList_ofList, hrest, List.flatMap_cons]
  rfl

/-- The link of a Signal stays on the host of the selected Environment. -/
theorem staysOnHost_signalUrl {signalId : String} (h : s.signalUrl signalId = some link) :
    StaysOnHost s link := by
  rw [DashboardState.signalUrl] at h
  split at h
  · obtain ⟨hsome, hsupported⟩ := Option.filter_eq_some_iff.mp h
    obtain ⟨e, he, rfl⟩ := Option.map_eq_some_iff.mp hsome
    obtain ⟨host, hne, hinstance, -⟩ := isHttpsOn_link hsupported
    exact ⟨e, host, he, hne, hinstance, hinstance⟩
  split at h
  · obtain ⟨e, he, hlink⟩ := selected_of_bind h
    dsimp only at hlink
    split at hlink
    · next hsupported =>
      obtain ⟨host, hne, hinstance, hlinks⟩ := isHttpsOn_link_of_trimmed hsupported
      obtain rfl := Option.some.inj hlink
      exact ⟨e, host, he, hne, hinstance, hlinks _ rfl⟩
    · cases hlink
  · obtain ⟨path, hpath, h⟩ := Option.bind_eq_some_iff.mp h
    obtain ⟨e, he, hlink⟩ := selected_of_bind h
    dsimp only at hlink
    split at hlink
    · next hsupported =>
      obtain ⟨host, hne, hinstance, hlinks⟩ := isHttpsOn_link hsupported
      obtain rfl := Option.some.inj hlink
      exact ⟨e, host, he, hne, hinstance, hlinks _ (head?_encodeQuery (head?_listPath hpath))⟩
    · cases hlink

/-- So does the link of a record. -/
theorem staysOnHost_recordUrl {table sysId : String} (h : s.recordUrl table sysId = some link) :
    StaysOnHost s link := by
  rw [DashboardState.recordUrl] at h
  split at h
  · cases h
  obtain ⟨e, he, hlink⟩ := selected_of_bind h
  dsimp only at hlink
  split at hlink
  · next hsupported =>
    obtain ⟨host, hne, hinstance, hlinks⟩ := isHttpsOn_link hsupported
    refine ⟨e, host, he, hne, hinstance, ?_⟩
    have htail := hlinks ("/" ++ (table ++ (".do?sys_id=" ++ sysId)))
      (by rw [String.toList_append]; rfl)
    simp only [← String.append_assoc] at htail
    rw [← Option.some.inj hlink]
    exact htail
  · cases hlink

/-- So does the link of a table. -/
theorem staysOnHost_listUrl {table : String} (h : s.listUrl table = some link) :
    StaysOnHost s link := by
  rw [DashboardState.listUrl] at h
  obtain ⟨e, he, hlink⟩ := selected_of_bind h
  dsimp only at hlink
  split at hlink
  · cases hlink
  next hsupported =>
    rw [not_or, not_not] at hsupported
    obtain ⟨host, hne, hinstance, hlinks⟩ := isHttpsOn_link_of_trimmed hsupported.2
    refine ⟨e, host, he, hne, hinstance, ?_⟩
    have htail := hlinks ("/" ++ (table ++ "_list.do")) (by rw [String.toList_append]; rfl)
    simp only [← String.append_assoc] at htail
    rw [← Option.some.inj hlink]
    exact htail

end Links

section Rows

variable {P : String → Prop} {row : Value → DrillInRow} {value : Value}

/-- Every link of these rows has the property. -/
def LinksHave (P : String → Prop) (rows : Option DrillInRows) : Prop :=
  ∀ drill, rows = some drill → ∀ r ∈ drill.rows, ∀ link, r.link = some link → P link

/-- Rows made from the entries of what was found link what the row of an entry links. -/
private theorem linksHave_map {α : Type} {headers : List String} {found : Option α}
    {entries : α → List Value} {truncated : α → Bool}
    (hrow : ∀ entry link, (row entry).link = some link → P link) :
    LinksHave P (found.map fun a ↦ ⟨headers, (entries a).map row, truncated a⟩) := by
  intro drill hdrill r hr link hlink
  obtain ⟨a, -, rfl⟩ := Option.map_eq_some_iff.mp hdrill
  obtain ⟨entry, -, rfl⟩ := List.mem_map.mp hr
  exact hrow entry link hlink

private theorem linksHave_listRows {headers : List String} {listKey : String}
    (hrow : ∀ entry link, (row entry).link = some link → P link) :
    LinksHave P (listRows headers listKey row value) :=
  linksHave_map hrow

/-- Rows without links. -/
private theorem linksHave_plain {headers : List String} {listKey : String}
    (hrow : ∀ entry, (row entry).link = none) :
    LinksHave P (listRows headers listKey row value) := by
  apply linksHave_listRows
  intro entry link hlink
  rw [hrow] at hlink
  cases hlink

variable {s : DashboardState}

/-- Rows of records. -/
private theorem linksHave_records {headers cells : List String} {listKey table idKey : String} :
    LinksHave (StaysOnHost s) (listRows headers listKey (s.recordRow cells table idKey) value) :=
  linksHave_listRows fun _ _ hlink ↦ staysOnHost_recordUrl hlink

private theorem linksHave_jobRows : LinksHave (StaysOnHost s) (s.jobRows value) := by
  intro drill hdrill r hr link hlink
  rw [DashboardState.jobRows] at hdrill
  dsimp only at hdrill
  split at hdrill
  · cases hdrill
  rw [← Option.some.inj hdrill] at hr
  obtain hr | hr := List.mem_append.mp (List.mem_of_mem_take hr)
  all_goals
    obtain ⟨entry, -, rfl⟩ := List.mem_map.mp hr
    exact staysOnHost_recordUrl hlink

private theorem linksHave_tableRows : LinksHave (StaysOnHost s) (s.tableRows value) := by
  apply linksHave_map
  intro entry link hlink
  obtain ⟨_, -, hlist⟩ := Option.bind_eq_some_iff.mp hlink
  exact staysOnHost_listUrl hlist

private theorem linksHave_driftRows : LinksHave P (driftRows value) := by
  apply linksHave_map
  intro entry link hlink
  cases hlink

private theorem linksHave_lastCloneRows : LinksHave P (lastCloneRows value) := by
  intro drill hdrill r hr link hlink
  obtain ⟨completed, -, rfl⟩ := Option.map_eq_some_iff.mp hdrill
  rw [List.mem_singleton.mp hr] at hlink
  cases hlink

/-- An Actions run links an `https` URL without user information. -/
private theorem linksHave_actionsRows :
    LinksHave (fun link ↦ ∃ host, host ≠ [] ∧ IsHttpsOn host link) (actionsRows value) := by
  apply linksHave_listRows
  intro entry link hlink
  obtain ⟨-, hsupported⟩ := Option.filter_eq_some_iff.mp hlink
  obtain ⟨host, hne, hhost, -⟩ := isHttpsOn_link hsupported
  exact ⟨host, hne, hhost⟩

/-- The rows of every other Signal link the host of the selected Environment. -/
private theorem linksHave_drillInRows {signalId : String} (hother : signalId ≠ "actions") :
    LinksHave (StaysOnHost s) (s.drillInRows signalId) := by
  rw [DashboardState.drillInRows.eq_def]
  dsimp only
  split
  · exact linksHave_driftRows
  · exact linksHave_plain fun _ ↦ rfl
  · exact linksHave_lastCloneRows
  · exact linksHave_jobRows
  · exact linksHave_plain fun _ ↦ rfl
  · exact linksHave_plain fun _ ↦ rfl
  · exact linksHave_records
  · exact linksHave_records
  · exact linksHave_records
  · exact linksHave_tableRows
  · exact linksHave_plain fun _ ↦ rfl
  · exact linksHave_records
  · exact linksHave_records
  · exact linksHave_records
  · exact absurd rfl hother
  · intro drill hdrill
    cases hdrill

end Rows

/-- Whatever was published, the link of a Signal, of a record and of a row stays on the `https`
host of the selected Environment, and a run of Actions links an `https` URL without user
information. -/
theorem links_stay_on_host (s : DashboardState) (signalId table sysId : String) :
    (∀ link, s.signalUrl signalId = some link → StaysOnHost s link) ∧
      (∀ link, s.recordUrl table sysId = some link → StaysOnHost s link) ∧
      LinksHave (fun link ↦ if signalId = "actions" then ∃ host, host ≠ [] ∧ IsHttpsOn host link
        else StaysOnHost s link) (s.drillInRows signalId) := by
  refine ⟨fun _ ↦ staysOnHost_signalUrl, fun _ ↦ staysOnHost_recordUrl, ?_⟩
  by_cases hactions : signalId = "actions"
  · subst hactions
    simp only [if_true]
    exact linksHave_actionsRows
  · simp only [if_neg hactions]
    exact linksHave_drillInRows hactions

/-- A window of one Environment. -/
def windowOf (instanceUrl : String) : DashboardState :=
  { DashboardState.new with
    environments := [{ waitingSummary "test" with instanceUrl }]
    selectedId := some "test" }

/-- An id of a record leads nowhere else. -/
theorem links_stay_on_host_record :
    (windowOf "https://dev//").recordUrl "incident" "@evil" =
        some "https://dev/incident.do?sys_id=@evil" ∧
      StaysOnHost (windowOf "https://dev//") "https://dev/incident.do?sys_id=@evil" :=
  have hlink : (windowOf "https://dev//").recordUrl "incident" "@evil" =
      some "https://dev/incident.do?sys_id=@evil" := by decide +kernel
  ⟨hlink, (links_stay_on_host (windowOf "https://dev//") "jobs" "incident" "@evil").2.1 _ hlink⟩

end Daku.Desktop
