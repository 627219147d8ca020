import DomainAI.Inference.ModelDownloader

/-!
# The host that a request is made to

The allow-list is checked against the text before the first colon or slash.  The
HTTP client parses the whole URL, and there an at sign makes what precedes it user
information.
-/

namespace DomainAI
namespace ModelDownloader

/-!
# The authority of a URL
-/

def isDelimiter (c : Char) : Bool :=
  c == '/' || c == '\\' || c == '?' || c == '#'

/-- What of a host and of a port is left to the HTTP client. -/
structure HostReader where
  /-- The host in its canonical form, unless it is invalid. -/
  canonicalHost : Text -> Option Text
  isPort : Text -> Bool

/-- A host and its port; a colon in brackets is part of the host. -/
def splitPort : Bool -> Text -> Text × Text
  | _, [] => ([], [])
  | inBrackets, c :: rest =>
      if c == ':' && !inBrackets then ([], rest)
      else
        let split := splitPort (c == '[' || inBrackets && c != ']') rest
        (c :: split.1, split.2)

def HostReader.read (k : HostReader) (hostAndPort : Text) : Option Text :=
  let split := splitPort false hostAndPort
  if split.2 = [] ∨ k.isPort split.2 = true then k.canonicalHost split.1 else none

/-- What follows the scheme, which is written in any case. -/
def afterScheme (url : Text) : Option Text :=
  if (url.take 6).map Char.toLower = "https:".toList then some (url.drop 6)
  else if (url.take 5).map Char.toLower = "http:".toList then some (url.drop 5)
  else none

/-- The host of a URL: what follows the last at sign of the authority, without the
port. -/
def urlHost (k : HostReader) (url : Text) : Option Text :=
  (afterScheme url).bind fun rest =>
    let authority :=
      (rest.dropWhile fun c => c == '/' || c == '\\').takeWhile fun c => !isDelimiter c
    k.read (ModelStorage.substringAfterLast '@' authority)

/-- A download that proceeds is made from an allow-listed host. -/
def Guarded (k : HostReader) (url : Text) : Prop :=
  isAllowed url = true ->
    forall host, urlHost k url = some host -> host ∈ ModelCatalog.allowedHosts

def schemes : List Text :=
  ["https://".toList, "http://".toList]

/-- An allow-listed host that is a user name: a colon follows it, and an at sign and
another host come before the first delimiter. -/
def Disguised (k : HostReader) (url : Text) : Prop :=
  exists scheme, scheme ∈ schemes ∧
  exists user, user ∈ ModelCatalog.allowedHosts ∧
  exists password hostAndPort delimiter rest foreign,
    url = scheme ++ (user ++ (':' :: (password ++ '@' :: hostAndPort) ++ delimiter :: rest)) ∧
    (forall c, c ∈ password ++ hostAndPort -> isDelimiter c = false) ∧
    '@' ∉ hostAndPort ∧
    isDelimiter delimiter = true ∧ '/' ∈ delimiter :: rest ∧
    k.read hostAndPort = some foreign ∧ foreign ∉ ModelCatalog.allowedHosts

/-!
# What the check reads
-/

def isPlain (c : Char) : Bool :=
  !isDelimiter c && c != '@' && c != ':' && c != '['

theorem allowedHosts_plain {host : Text} (h : host ∈ ModelCatalog.allowedHosts) :
    host ≠ [] ∧ forall c, c ∈ host -> isPlain c = true := by
  have hall : ModelCatalog.allowedHosts.all
      (fun host => !host.isEmpty && host.all isPlain) = true := by
    decide
  have hhost := List.all_eq_true.mp hall host h
  rw [Bool.and_eq_true, List.all_eq_true] at hhost
  refine ⟨?_, hhost.right⟩
  rintro rfl
  exact Bool.false_ne_true hhost.left

theorem not_isDelimiter_of_isPlain {c : Char} (h : isPlain c = true) :
    isDelimiter c = false := by
  simp only [isPlain, Bool.and_eq_true, Bool.not_eq_true'] at h
  exact h.left.left.left

theorem ne_of_isPlain {c : Char} (h : isPlain c = true) :
    c ≠ '@' ∧ c ≠ ':' ∧ c ≠ '[' := by
  simp only [isPlain, Bool.and_eq_true, bne_iff_ne] at h
  exact ⟨h.left.left.right, h.left.right, h.right⟩

theorem ne_slash_of_not_isDelimiter {c : Char} (h : isDelimiter c = false) :
    c ≠ '/' := by
  rintro rfl
  revert h
  decide

theorem takeWhile_before {p : Char -> Bool} {t : Text} {c : Char} (rest : Text)
    (ht : forall d, d ∈ t -> p d = true) (hc : p c = false) :
    (t ++ c :: rest).takeWhile p = t := by
  rw [List.takeWhile_append_of_pos ht, List.takeWhile_cons, hc]
  simp

theorem takeWhile_split (c : Char) (t : Text) :
    exists tail, t = t.takeWhile (fun d => d != c) ++ tail ∧
      c ∉ t.takeWhile (fun d => d != c) ∧
      (tail = [] ∨ exists rest, tail = c :: rest) := by
  refine ⟨t.dropWhile (fun d => d != c), List.takeWhile_append_dropWhile.symm, ?_, ?_⟩
  · intro hmem
    have hne := List.mem_takeWhile_imp hmem
    rw [bne_iff_ne] at hne
    exact hne rfl
  · cases hdrop : t.dropWhile (fun d => d != c) with
    | nil => exact Or.inl rfl
    | cons d rest =>
        have hhead := List.head_dropWhile_not (fun d => d != c) (l := t)
          (by rw [hdrop]; exact List.cons_ne_nil d rest)
        simp only [hdrop, List.head_cons, bne_eq_false_iff_eq] at hhead
        exact Or.inr ⟨rest, by rw [hhead]⟩

theorem takeWhile_host {host port : Text} (hhost : ':' ∉ host)
    (hport : port = [] ∨ exists p, port = ':' :: p) :
    (host ++ port).takeWhile (fun c => c != ':') = host := by
  have hplain : forall c, c ∈ host -> (c != ':') = true := by
    intro c hc
    rw [bne_iff_ne]
    rintro rfl
    exact hhost hc
  rcases hport with rfl | ⟨p, rfl⟩
  · rw [List.append_nil, List.takeWhile_eq_self_iff]
    exact hplain
  · exact takeWhile_before p hplain rfl

theorem toHttpHostOrNull_eq_some {url host : Text}
    (h : toHttpHostOrNull url = some host) :
    exists scheme, scheme ∈ schemes ∧
      exists port rest, url = scheme ++ (host ++ (port ++ '/' :: rest)) ∧
        '/' ∉ port ∧ (port = [] ∨ exists p, port = ':' :: p) := by
  have hstart : exists scheme t, scheme ∈ schemes ∧ url = scheme ++ t ∧
      ((if t.takeWhile (fun c => c != '/') = [] ∨
          (t.takeWhile (fun c => c != '/')).length = t.length then none
        else some ((t.takeWhile (fun c => c != '/')).takeWhile (fun c => c != ':'))) =
        some host) := by
    rw [toHttpHostOrNull] at h
    split at h
    · rename_i hhttps
      rcases List.isPrefixOf_iff_prefix.mp hhttps with ⟨t, rfl⟩
      exact ⟨_, t, by simp [schemes], rfl, h⟩
    · split at h
      · rename_i hhttp
        rcases List.isPrefixOf_iff_prefix.mp hhttp with ⟨t, rfl⟩
        exact ⟨_, t, by simp [schemes], rfl, h⟩
      · cases h
  rcases hstart with ⟨scheme, t, hscheme, rfl, hhost⟩
  refine ⟨scheme, hscheme, ?_⟩
  rcases takeWhile_split '/' t with ⟨tail, ht, hslash, htail⟩
  generalize t.takeWhile (fun c => c != '/') = group at hhost ht hslash
  subst ht
  rcases takeWhile_split ':' group with ⟨port, hgroup, _, hport⟩
  split at hhost
  · cases hhost
  · rename_i hends
    rw [not_or] at hends
    rw [Option.some.inj hhost] at hgroup
    subst hgroup
    rcases htail with rfl | ⟨rest, rfl⟩
    · exact absurd (by simp) hends.right
    · refine ⟨port, rest, by simp, ?_, hport⟩
      intro hmem
      exact hslash (List.mem_append_right host hmem)

theorem toHttpHostOrNull_url {scheme host port : Text} (hscheme : scheme ∈ schemes)
    (hne : host ≠ []) (hhost : ':' ∉ host)
    (hport : port = [] ∨ exists p, port = ':' :: p) (hslash : '/' ∉ host ++ port)
    (rest : Text) :
    toHttpHostOrNull (scheme ++ (host ++ (port ++ '/' :: rest))) = some host := by
  have hgroup : (host ++ (port ++ '/' :: rest)).takeWhile (fun c => c != '/') =
      host ++ port := by
    rw [← List.append_assoc]
    refine takeWhile_before rest ?_ rfl
    intro c hc
    rw [bne_iff_ne]
    rintro rfl
    exact hslash hc
  have hrest : (if (host ++ (port ++ '/' :: rest)).takeWhile (fun c => c != '/') = [] ∨
      ((host ++ (port ++ '/' :: rest)).takeWhile (fun c => c != '/')).length =
        (host ++ (port ++ '/' :: rest)).length then none
      else some (((host ++ (port ++ '/' :: rest)).takeWhile
        (fun c => c != '/')).takeWhile (fun c => c != ':'))) = some host := by
    rw [hgroup, if_neg, takeWhile_host hhost hport]
    rw [not_or]
    constructor
    · simp [hne]
    · simp
  simp only [schemes, List.mem_cons, List.not_mem_nil, or_false] at hscheme
  rcases hscheme with rfl | rfl
  · exact hrest
  · exact hrest

/-!
# What the HTTP client reads
-/

theorem urlHost_url (k : HostReader) {scheme authority : Text} {delimiter : Char}
    (hscheme : scheme ∈ schemes) (hne : authority ≠ [])
    (hauthority : forall c, c ∈ authority -> isDelimiter c = false)
    (hdelimiter : isDelimiter delimiter = true) (rest : Text) :
    urlHost k (scheme ++ (authority ++ delimiter :: rest)) =
      k.read (ModelStorage.substringAfterLast '@' authority) := by
  have hslashes : (authority ++ delimiter :: rest).dropWhile
      (fun c => c == '/' || c == '\\') = authority ++ delimiter :: rest := by
    cases authority with
    | nil => exact absurd rfl hne
    | cons c authority =>
        have hc := hauthority c List.mem_cons_self
        simp only [isDelimiter, Bool.or_eq_false_iff] at hc
        rw [List.cons_append, List.dropWhile_cons, hc.left.left.left, hc.left.left.right]
        rfl
  have hread : k.read (ModelStorage.substringAfterLast '@'
      (((authority ++ delimiter :: rest).dropWhile fun c => c == '/' || c == '\\').takeWhile
        fun c => !isDelimiter c)) =
      k.read (ModelStorage.substringAfterLast '@' authority) := by
    rw [hslashes, takeWhile_before rest]
    · intro c hc
      rw [hauthority c hc]
      rfl
    · rw [hdelimiter]
      rfl
  simp only [schemes, List.mem_cons, List.not_mem_nil, or_false] at hscheme
  rcases hscheme with rfl | rfl
  · exact hread
  · exact hread

theorem splitPort_host {host port : Text} (hhost : forall c, c ∈ host -> isPlain c = true)
    (hport : port = [] ∨ exists p, port = ':' :: p) :
    (splitPort false (host ++ port)).1 = host := by
  induction host with
  | nil =>
      rcases hport with rfl | ⟨p, rfl⟩
      · rfl
      · rfl
  | cons c host ih =>
      rcases ne_of_isPlain (hhost c List.mem_cons_self) with ⟨_, hcolon, hbracket⟩
      have hrest := ih fun d hd => hhost d (List.mem_cons_of_mem c hd)
      have hinside : (c == '[' || false && c != ']') = false := by
        simp [hbracket]
      rw [List.cons_append, splitPort, if_neg (by simp [hcolon]), hinside]
      simp only
      rw [hrest]

theorem substringAfterLast_append {separator : Char} {t : Text} (h : separator ∉ t)
    (before : Text) :
    ModelStorage.substringAfterLast separator (before ++ separator :: t) = t := by
  have htake : (before ++ separator :: t).reverse.takeWhile (fun c => c != separator) =
      t.reverse := by
    rw [List.reverse_append, List.reverse_cons, List.append_assoc, List.singleton_append]
    refine takeWhile_before before.reverse ?_ (by simp)
    intro c hc
    rw [bne_iff_ne]
    rintro rfl
    exact h (List.mem_reverse.mp hc)
  rw [ModelStorage.substringAfterLast, htake, List.reverse_reverse]

theorem substringAfterLast_userinfo {hostAndPort : Text} (h : '@' ∉ hostAndPort)
    (user password : Text) :
    ModelStorage.substringAfterLast '@'
      (user ++ ':' :: (password ++ '@' :: hostAndPort)) = hostAndPort := by
  have hsplit : user ++ ':' :: (password ++ '@' :: hostAndPort) =
      (user ++ ':' :: password) ++ '@' :: hostAndPort := by
    simp
  rw [hsplit]
  exact substringAfterLast_append h _

theorem exists_last_of_mem {c : Char} {t : Text} (h : c ∈ t) :
    exists before after, t = before ++ c :: after ∧ c ∉ after := by
  rcases List.eq_append_cons_of_mem (List.mem_reverse.mpr h) with
    ⟨after, before, ht, hafter⟩
  refine ⟨before.reverse, after.reverse, ?_, ?_⟩
  · rw [<- List.reverse_reverse t, ht]
    simp
  · intro hmem
    exact hafter (List.mem_reverse.mp hmem)

theorem exists_first_delimiter {t : Text} (h : '/' ∈ t) :
    exists authority delimiter rest, t = authority ++ delimiter :: rest ∧
      (forall c, c ∈ authority -> isDelimiter c = false) ∧
      isDelimiter delimiter = true ∧ '/' ∈ delimiter :: rest := by
  have hfound : (t.find? isDelimiter).isSome = true := by
    rw [List.find?_isSome]
    exact ⟨'/', h, rfl⟩
  rcases Option.isSome_iff_exists.mp hfound with ⟨delimiter, hfind⟩
  rcases List.find?_eq_some_iff_append.mp hfind with
    ⟨hdelimiter, authority, rest, rfl, hauthority⟩
  have hplain : forall c, c ∈ authority -> isDelimiter c = false := by
    intro c hc
    simpa using hauthority c hc
  refine ⟨authority, delimiter, rest, rfl, hplain, hdelimiter, ?_⟩
  rcases List.mem_append.mp h with hmem | hmem
  · exact absurd rfl (ne_slash_of_not_isDelimiter (hplain '/' hmem))
  · exact hmem

/-!
# Both of them
-/

/-- An allow-listed host is read as itself, whatever port follows it. -/
theorem read_allowed {k : HostReader}
    (hcanonical : forall host, host ∈ ModelCatalog.allowedHosts ->
      k.canonicalHost host = some host)
    {user port host : Text} (huser : user ∈ ModelCatalog.allowedHosts)
    (hport : port = [] ∨ exists p, port = ':' :: p)
    (h : k.read (user ++ port) = some host) : host = user := by
  unfold HostReader.read at h
  simp only at h
  split at h
  · rw [splitPort_host (allowedHosts_plain huser).right hport, hcanonical user huser] at h
    exact (Option.some.inj h).symm
  · cases h

theorem disguised_of_read {k : HostReader} {scheme user port host rest : Text}
    {delimiter : Char} (hscheme : scheme ∈ schemes)
    (huser : user ∈ ModelCatalog.allowedHosts)
    (hport : port = [] ∨ exists p, port = ':' :: p)
    (hauthority : forall c, c ∈ port -> isDelimiter c = false)
    (hdelimiter : isDelimiter delimiter = true) (hslash : '/' ∈ delimiter :: rest)
    (hat : '@' ∈ port)
    (hread : k.read (ModelStorage.substringAfterLast '@' (user ++ port)) = some host)
    (hforeign : host ∉ ModelCatalog.allowedHosts) :
    Disguised k (scheme ++ (user ++ (port ++ delimiter :: rest))) := by
  rcases hport with rfl | ⟨p, rfl⟩
  · cases hat
  have hp : '@' ∈ p := (List.mem_cons.mp hat).resolve_left (by decide)
  rcases exists_last_of_mem hp with ⟨password, hostAndPort, rfl, hlast⟩
  refine ⟨scheme, hscheme, user, huser, password, hostAndPort, delimiter, rest, host,
    rfl, ?_, hlast, hdelimiter, hslash, ?_, hforeign⟩
  · intro c hc
    apply hauthority c
    rcases List.mem_append.mp hc with hc | hc
    · simp [hc]
    · simp [hc]
  · rw [substringAfterLast_userinfo hlast] at hread
    exact hread

theorem host_mem_of_isAllowed {k : HostReader}
    (hcanonical : forall host, host ∈ ModelCatalog.allowedHosts ->
      k.canonicalHost host = some host)
    {url host : Text} (hallowed : isAllowed url = true) (hhost : urlHost k url = some host)
    (hplain : ¬ Disguised k url) : host ∈ ModelCatalog.allowedHosts := by
  rw [isAllowed, Option.any_eq_true] at hallowed
  rcases hallowed with ⟨user, hread, huser⟩
  rw [decide_eq_true_eq] at huser
  rcases toHttpHostOrNull_eq_some hread with ⟨scheme, hscheme, group, path, rfl, _, hgroup⟩
  rcases exists_first_delimiter (t := group ++ '/' :: path) (by simp) with
    ⟨port, delimiter, rest, hsplit, hauthority, hdelimiter, hslash⟩
  have hport : port = [] ∨ exists p, port = ':' :: p := by
    cases port with
    | nil => exact Or.inl rfl
    | cons c port =>
        rcases hgroup with rfl | ⟨p, rfl⟩
        · -- The authority ends with the host.
          cases hsplit
          cases hauthority '/' List.mem_cons_self
        · have hc := (List.cons.inj hsplit).left
          exact Or.inr ⟨port, by rw [hc]⟩
  rcases allowedHosts_plain huser with ⟨hne, hletters⟩
  have hwhole : forall c, c ∈ user ++ port -> isDelimiter c = false := by
    intro c hc
    rcases List.mem_append.mp hc with hc | hc
    · exact not_isDelimiter_of_isPlain (hletters c hc)
    · exact hauthority c hc
  rw [hsplit] at hplain hhost
  rw [<- List.append_assoc user, urlHost_url k hscheme (by simp [hne]) hwhole hdelimiter]
    at hhost
  by_cases hat : '@' ∈ port
  · by_contra hforeign
    exact hplain (disguised_of_read hscheme huser hport hauthority hdelimiter hslash hat
      hhost hforeign)
  · have hnone : '@' ∉ user ++ port := by
      rw [List.mem_append, not_or]
      exact ⟨fun hmem => (ne_of_isPlain (hletters '@' hmem)).left rfl, hat⟩
    rw [ModelStorage.substringAfterLast_of_notMem hnone] at hhost
    rw [read_allowed hcanonical huser hport hhost]
    exact huser

/-- The check lets a disguised URL pass, and the request goes elsewhere. -/
theorem not_guarded_of_disguised {k : HostReader} {url : Text} (h : Disguised k url) :
    ¬ Guarded k url := by
  rcases h with ⟨scheme, hscheme, user, huser, password, hostAndPort, delimiter, rest,
    foreign, rfl, hauthority, hlast, hdelimiter, hslash, hread, hforeign⟩
  rcases allowedHosts_plain huser with ⟨hne, hletters⟩
  have huserinfo : forall c, c ∈ user ++ ':' :: (password ++ '@' :: hostAndPort) ->
      isDelimiter c = false := by
    intro c hc
    simp only [List.mem_append, List.mem_cons] at hc
    rcases hc with hc | rfl | hc | rfl | hc
    · exact not_isDelimiter_of_isPlain (hletters c hc)
    · decide
    · exact hauthority c (List.mem_append_left _ hc)
    · decide
    · exact hauthority c (List.mem_append_right _ hc)
  intro hguarded
  apply hforeign
  apply hguarded
  · rcases List.eq_append_cons_of_mem hslash with ⟨a, b, hrest, ha⟩
    have hurl : scheme ++ (user ++ (':' :: (password ++ '@' :: hostAndPort) ++
          delimiter :: rest)) =
        scheme ++ (user ++ ((':' :: (password ++ '@' :: hostAndPort) ++ a) ++ '/' :: b)) := by
      rw [hrest, List.append_assoc (':' :: (password ++ '@' :: hostAndPort))]
    have hgroup : '/' ∉ user ++ (':' :: (password ++ '@' :: hostAndPort) ++ a) := by
      intro hmem
      rw [<- List.append_assoc, List.mem_append] at hmem
      rcases hmem with hmem | hmem
      · exact ne_slash_of_not_isDelimiter (huserinfo '/' hmem) rfl
      · exact ha hmem
    have hhost : toHttpHostOrNull (scheme ++ (user ++
        ((':' :: (password ++ '@' :: hostAndPort) ++ a) ++ '/' :: b))) = some user :=
      toHttpHostOrNull_url hscheme hne
        (fun hmem => (ne_of_isPlain (hletters ':' hmem)).right.left rfl)
        (Or.inr ⟨_, rfl⟩) hgroup b
    rw [isAllowed, hurl, hhost]
    simpa using huser
  · rw [<- List.append_assoc user, urlHost_url k hscheme (by simp [hne]) huserinfo
      hdelimiter, substringAfterLast_userinfo hlast]
    exact hread

/-- The host that a request is made to is allow-listed just when the allow-listed host
in the URL is not the name of a user of another. -/
theorem host_allowed (k : HostReader)
    (hcanonical : forall host, host ∈ ModelCatalog.allowedHosts ->
      k.canonicalHost host = some host)
    (url : Text) : Guarded k url <-> ¬ Disguised k url := by
  constructor
  · intro hguarded hdisguised
    exact not_guarded_of_disguised hdisguised hguarded
  · intro hplain hallowed host hhost
    exact host_mem_of_isAllowed hcanonical hallowed hhost hplain

def asciiReader : HostReader where
  canonicalHost := fun host =>
    if host ≠ [] ∧ host.all (fun c => c.isAlphanum || c == '.' || c == '-') = true then
      some (host.map Char.toLower)
    else none
  isPort := fun port =>
    port.all Char.isDigit && 0 < Nat.ofDigitChars 10 port 0 &&
      Nat.ofDigitChars 10 port 0 < 65536

theorem host_allowed_catalog :
    isAllowed "https://huggingface.co:443/model.gguf".toList = true ∧
      urlHost asciiReader "https://huggingface.co:443/model.gguf".toList =
        some "huggingface.co".toList ∧
      Guarded asciiReader "https://huggingface.co:443/model.gguf".toList := by
  refine ⟨by decide, by decide, (host_allowed asciiReader (by decide) _).mpr ?_⟩
  intro hdisguised
  rcases hdisguised with
    ⟨scheme, _, user, _, password, hostAndPort, delimiter, rest, foreign, hurl, _⟩
  have hmem : '@' ∈ "https://huggingface.co:443/model.gguf".toList := by
    rw [hurl]
    simp
  revert hmem
  decide

/-- The request is made to the host after the at sign. -/
theorem host_allowed_fails :
    exists url, isAllowed url = true ∧
      urlHost asciiReader url = some "evil.com".toList ∧
      "evil.com".toList ∉ ModelCatalog.allowedHosts ∧ ¬ Guarded asciiReader url := by
  refine ⟨"https://huggingface.co:x@evil.com/model.gguf".toList, by decide, by decide,
    by decide, ?_⟩
  intro hguarded
  have hmem := hguarded (by decide) "evil.com".toList (by decide)
  revert hmem
  decide

end ModelDownloader
end DomainAI
