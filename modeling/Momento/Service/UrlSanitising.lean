/-
  Momento.Service.UrlSanitising

  **WHAT SANITISING LEAVES OF A URL.**  `sanitizeURL` takes a URL apart, drops its
  fragment, and its query or the masked values in it, and puts it together again.  A
  text that `url.Parse` refuses is returned as it came.

  What a URL holds is read off its text: the fragment is what follows the number sign,
  the query what stands between the first question mark and it.
-/
import Mathlib.Data.List.TakeWhile
import Momento.Foundation.QueryString
import Momento.Model.Privacy
import Momento.Service.Runs

namespace Momento

open Foundation.QueryString (Form)

/-! ## §1. The parts of a text. -/

/-- The text between the first question mark and the number sign. -/
def queryText (text : String) : String :=
  String.ofList (((text.toList.takeWhile (· ≠ '#')).dropWhile (· ≠ '?')).drop 1)

theorem queryText_empty : queryText "" = "" := rfl

/-! ## §2. The property. -/

section
variable (env : Platform) (privacy : Policy)

/-- The parameter is on the list of masked ones. -/
def Masks (name : String) : Prop := matchForm env name ∈ matchSet env privacy.maskedParameters

instance (name : String) : Decidable (Masks env privacy name) := inferInstanceAs (Decidable (_ ∈ _))

/-- The query that is kept of a URL's. -/
def maskedQuery (query : Form) : Form :=
  query.map fun p => if Masks env privacy p.1 then (p.1, ["[MASKED]"]) else p

/-- The query that a URL comes out with. -/
def keptQuery (rawQuery : String) : String :=
  if privacy.stripQueryString then "" else env.encodeQuery (maskedQuery env privacy (env.parseQuery rawQuery))

/-- No fragment, no query where queries are stripped, and no value of a masked
parameter. -/
structure NothingPrivate (text : String) : Prop where
  noFragment : '#' ∉ text.toList
  noQuery : privacy.stripQueryString = true → queryText text = ""
  noMaskedValue : ∀ p ∈ env.parseQuery (queryText text), Masks env privacy p.1 → ∀ value ∈ p.2, value = "[MASKED]"

/-- The property: nothing private is left, and a second sanitising changes nothing. -/
structure Sanitised (text : String) : Prop extends NothingPrivate env privacy text where
  stable : sanitizeUrl env text privacy = text

/-- `url.Parse` takes the text apart. -/
def Parses (text : String) : Prop := (env.parseUrl text).isSome = true

instance (text : String) : Decidable (Parses env text) := inferInstanceAs (Decidable (_ = _))

/-! ## §3. A URL that is taken apart. -/

/-- The text a URL comes out as. -/
def sanitisedUrl (u : Url) : String :=
  env.urlString { u with fragment := "", rawQuery := keptQuery env privacy u.rawQuery }

/-- What `net/url` says of its functions, where `sanitizeURL` calls them: of a URL that
was parsed, less its fragment and with the query that is kept of it. -/
structure NetUrl : Prop where
  /-- `String` writes a number sign before a fragment only. -/
  string_fragment : ∀ {raw u} privacy, env.parseUrl raw = some u → '#' ∉ (sanitisedUrl env privacy u).toList
  /-- The query is written after the first question mark. -/
  string_query : ∀ {raw u} privacy, env.parseUrl raw = some u →
    queryText (sanitisedUrl env privacy u) = keptQuery env privacy u.rawQuery
  /-- The text is a URL's, with that query, and no other text is. -/
  parse_string : ∀ {raw u} privacy, env.parseUrl raw = some u →
    ∃ w, env.parseUrl (sanitisedUrl env privacy u) = some w ∧ w.rawQuery = keptQuery env privacy u.rawQuery
      ∧ w.fragment = "" ∧ env.urlString w = sanitisedUrl env privacy u
  /-- `ParseQuery` returns a map, each key with the values given for it. -/
  parseQuery_wellFormed : ∀ s, Form.WellFormed (env.parseQuery s)
  parseQuery_empty : env.parseQuery "" = []
  /-- What `Encode` writes of a URL's query, with the mask for some of its values,
  `ParseQuery` reads: it has no more pairs than the URL had. -/
  parseQuery_encodeQuery : ∀ {raw u} privacy, env.parseUrl raw = some u →
    (env.parseQuery (env.encodeQuery (maskedQuery env privacy (env.parseQuery u.rawQuery)))).Perm
      (maskedQuery env privacy (env.parseQuery u.rawQuery))
  /-- It is sorted by key, -/
  encodeQuery_perm : ∀ {v w : Form}, v.WellFormed → v.Perm w → env.encodeQuery v = env.encodeQuery w
  /-- and a number sign is escaped in it. -/
  encodeQuery_plain : ∀ v, '#' ∉ (env.encodeQuery v).toList

theorem sanitizeUrl_of_parse {raw : String} {u : Url} (hraw : raw ≠ "") (h : env.parseUrl raw = some u) :
    sanitizeUrl env raw privacy = sanitisedUrl env privacy u := by
  unfold sanitizeUrl sanitisedUrl keptQuery
  rw [if_neg hraw, h]
  simp only
  split
  · rfl
  · rfl

theorem sanitizeUrl_of_not_parses {raw : String} (h : ¬Parses env raw) : sanitizeUrl env raw privacy = raw := by
  have hnone : env.parseUrl raw = none := Option.not_isSome_iff_eq_none.mp h
  unfold sanitizeUrl
  split
  · next hempty => exact hempty.symm
  · rw [hnone]

theorem keys_maskedQuery (query : Form) : (maskedQuery env privacy query).map Prod.fst = query.map Prod.fst := by
  unfold maskedQuery
  rw [List.map_map]
  refine List.map_congr_left fun p _ => ?_
  show (if Masks env privacy p.1 then (p.1, ["[MASKED]"]) else p).1 = p.1
  split
  · rfl
  · rfl

theorem wellFormed_maskedQuery {query : Form} (h : query.WellFormed) : (maskedQuery env privacy query).WellFormed where
  nodup := by
    rw [keys_maskedQuery]
    exact h.nodup
  nonempty := by
    intro p hp
    obtain ⟨old, hold, rfl⟩ := List.mem_map.mp hp
    show (if Masks env privacy old.1 then (old.1, ["[MASKED]"]) else old).2 ≠ []
    split
    · exact List.cons_ne_nil _ _
    · exact h.nonempty old hold

/-- A masked parameter has the mask for its value. -/
theorem values_maskedQuery {query : Form} {p : String × List String} (h : p ∈ maskedQuery env privacy query)
    (hmasks : Masks env privacy p.1) : p.2 = ["[MASKED]"] := by
  obtain ⟨old, -, rfl⟩ := List.mem_map.mp h
  by_cases hold : Masks env privacy old.1
  · rw [if_pos hold]
  · rw [if_neg hold] at hmasks
    exact absurd hmasks hold

/-- Masking a masked query changes nothing. -/
theorem maskedQuery_maskedQuery (query : Form) :
    maskedQuery env privacy (maskedQuery env privacy query) = maskedQuery env privacy query := by
  conv_rhs => rw [← List.map_id (maskedQuery env privacy query)]
  refine List.map_congr_left fun p hp => ?_
  split
  · next hmasks => exact Prod.ext rfl (values_maskedQuery env privacy hp hmasks).symm
  · rfl

variable {env} (net : NetUrl env)
include net

/-- What is read of the kept query: the masked one, in some order. -/
theorem parseQuery_keptQuery (hkeep : privacy.stripQueryString = false) {raw : String} {u : Url}
    (hu : env.parseUrl raw = some u) :
    (env.parseQuery (keptQuery env privacy u.rawQuery)).Perm
      (maskedQuery env privacy (env.parseQuery u.rawQuery)) := by
  unfold keptQuery
  rw [if_neg (Bool.eq_false_iff.mp hkeep)]
  exact net.parseQuery_encodeQuery privacy hu

/-- The kept query is kept as it is. -/
theorem keptQuery_keptQuery {raw : String} {u : Url} (hu : env.parseUrl raw = some u) :
    keptQuery env privacy (keptQuery env privacy u.rawQuery) = keptQuery env privacy u.rawQuery := by
  cases hstrip : privacy.stripQueryString with
  | true =>
    unfold keptQuery
    rw [if_pos hstrip, if_pos hstrip]
  | false =>
    have hread := parseQuery_keptQuery privacy net hstrip hu
    have hwell := wellFormed_maskedQuery env privacy
      (net.parseQuery_wellFormed (keptQuery env privacy u.rawQuery))
    -- masked a second time, in the order it is read in
    have hmasked : (maskedQuery env privacy (env.parseQuery (keptQuery env privacy u.rawQuery))).Perm
        (maskedQuery env privacy (env.parseQuery u.rawQuery)) := by
      rw [← maskedQuery_maskedQuery env privacy (env.parseQuery u.rawQuery)]
      exact hread.map _
    have hencode := net.encodeQuery_perm hwell hmasked
    conv_lhs => unfold keptQuery
    rw [if_neg (Bool.eq_false_iff.mp hstrip)]
    refine hencode.trans ?_
    unfold keptQuery
    rw [if_neg (Bool.eq_false_iff.mp hstrip)]

theorem nothingPrivate_empty : NothingPrivate env privacy "" where
  noFragment := List.not_mem_nil
  noQuery := fun _ => queryText_empty
  noMaskedValue := by
    rw [queryText_empty, net.parseQuery_empty]
    intro p hp
    exact absurd hp List.not_mem_nil

/-- **What was taken apart** comes out with nothing private in it. -/
theorem sanitised_of_parses {raw : String} (h : Parses env raw) :
    Sanitised env privacy (sanitizeUrl env raw privacy) := by
  by_cases hraw : raw = ""
  · subst hraw
    exact ⟨nothingPrivate_empty privacy net, rfl⟩
  · obtain ⟨u, hu⟩ := Option.isSome_iff_exists.mp h
    have hquery := net.string_query privacy hu
    rw [sanitizeUrl_of_parse env privacy hraw hu]
    refine ⟨⟨net.string_fragment privacy hu, ?_, ?_⟩, ?_⟩
    · intro hstrip
      rw [hquery, keptQuery, if_pos hstrip]
    · rw [hquery]
      intro p hp hmasks value hvalue
      cases hstrip : privacy.stripQueryString with
      | true =>
        -- no query is left to read
        rw [keptQuery, if_pos hstrip, net.parseQuery_empty] at hp
        exact absurd hp List.not_mem_nil
      | false =>
        have hmem := (parseQuery_keptQuery privacy net hstrip hu).mem_iff.mp hp
        rw [values_maskedQuery env privacy hmem hmasks] at hvalue
        exact List.mem_singleton.mp hvalue
    · obtain ⟨w, hw, hrawQuery, hfragment, hstring⟩ := net.parse_string privacy hu
      by_cases hempty : sanitisedUrl env privacy u = ""
      · rw [hempty]
        rfl
      · rw [sanitizeUrl_of_parse env privacy hempty hw]
        -- the second URL is put together from its own parts
        have hsame : ({ w with fragment := "", rawQuery := keptQuery env privacy w.rawQuery } : Url) = w := by
          rw [hrawQuery, keptQuery_keptQuery privacy net hu, ← hrawQuery, ← hfragment]
        rw [sanitisedUrl, hsame, hstring]

end

/-! ## §4. URLs of plain text. -/

namespace Sample
open Foundation

/-- A text cut at its first number sign and, before it, at its first question mark. -/
def splitUrl (raw : String) : Url where
  rest := String.ofList ((raw.toList.takeWhile (· ≠ '#')).takeWhile (· ≠ '?'))
  hostname := ""
  rawQuery := queryText raw
  fragment := String.ofList ((raw.toList.dropWhile (· ≠ '#')).drop 1)

/-- No percent sign is there without two digits after it. -/
def escapesWell (text : String) : Bool := (QueryString.unescape (QueryString.ofText text)).isSome

/-- Parsing without schemes and hosts. -/
def parsePlainUrl (raw : String) : Option Url := if escapesWell (splitUrl raw).rest then some (splitUrl raw) else none

/-- A URL with this rest and this query. -/
def plainUrl (rest q : String) : String := rest ++ (if q = "" then "" else "?" ++ q)

/-- The text of such an address. -/
def plainUrlString (u : Url) : String :=
  plainUrl u.rest u.rawQuery ++ (if u.fragment = "" then "" else "#" ++ u.fragment)

/-- A platform that reads every URL as `net/url` reads one with nothing to normalise
before its query; it refuses a percent sign that starts no escape there. -/
def urlPlatform : Platform :=
  { platform with
    parseUrl := parsePlainUrl
    urlString := plainUrlString
    parseQuery := QueryString.parseText
    encodeQuery := QueryString.encodeText }

theorem toList_plainUrl (rest q : String) :
    (plainUrl rest q).toList = rest.toList ++ (if q = "" then [] else '?' :: q.toList) := by
  unfold plainUrl
  rw [String.toList_append]
  split
  · rfl
  · rw [String.toList_append]
    rfl

section
variable {rest q : String} (hrest : ∀ c ∈ rest.toList, c ≠ '#' ∧ c ≠ '?') (hq : '#' ∉ q.toList)
include hrest hq

theorem plainUrl_plain : '#' ∉ (plainUrl rest q).toList := by
  rw [toList_plainUrl]
  intro h
  rcases List.mem_append.mp h with hmem | hmem
  · exact (hrest _ hmem).1 rfl
  · split at hmem
    · exact List.not_mem_nil hmem
    · rcases List.mem_cons.mp hmem with hmark | hmem
      · exact absurd hmark (by decide)
      · exact hq hmem

/-- Nothing of it is cut off at a number sign. -/
theorem takeWhile_plainUrl : (plainUrl rest q).toList.takeWhile (· ≠ '#') = (plainUrl rest q).toList := by
  apply List.takeWhile_eq_self_iff.mpr
  intro c hc
  exact decide_eq_true fun heq => plainUrl_plain hrest hq (heq ▸ hc)

theorem queryText_plainUrl : queryText (plainUrl rest q) = q := by
  have hall : ∀ c ∈ rest.toList, decide (c ≠ '?') = true := fun c hc => decide_eq_true (hrest c hc).2
  have hdrop : ((plainUrl rest q).toList.dropWhile (· ≠ '?')).drop 1 = q.toList := by
    rw [toList_plainUrl, List.dropWhile_append_of_pos hall]
    split
    next hempty =>
      rw [hempty]
      rfl
    · rw [List.dropWhile_cons_of_neg (by decide)]
      rfl
  unfold queryText
  rw [takeWhile_plainUrl hrest hq, hdrop, String.ofList_toList]

theorem splitUrl_plainUrl : splitUrl (plainUrl rest q) = ⟨rest, "", q, ""⟩ := by
  have hall : ∀ c ∈ rest.toList, decide (c ≠ '?') = true := fun c hc => decide_eq_true (hrest c hc).2
  have hnone : (plainUrl rest q).toList.dropWhile (· ≠ '#') = [] :=
    List.dropWhile_eq_nil_iff.mpr fun c hc => decide_eq_true fun heq => plainUrl_plain hrest hq (heq ▸ hc)
  have htake : ((plainUrl rest q).toList.takeWhile (· ≠ '?')) = rest.toList := by
    rw [toList_plainUrl, List.takeWhile_append_of_pos hall]
    split
    · exact List.append_nil _
    · rw [List.takeWhile_cons_of_neg (by decide), List.append_nil]
  unfold splitUrl
  rw [queryText_plainUrl hrest hq, takeWhile_plainUrl hrest hq, htake, hnone, String.ofList_toList]
  rfl

end

/-- What is before a parsed URL's query holds neither sign. -/
theorem rest_splitUrl (raw : String) : ∀ c ∈ (splitUrl raw).rest.toList, c ≠ '#' ∧ c ≠ '?' := by
  intro c hc
  unfold splitUrl at hc
  rw [String.toList_ofList] at hc
  have hmark := List.mem_takeWhile_imp hc
  have hsign := List.mem_takeWhile_imp ((List.takeWhile_sublist _).subset hc)
  exact ⟨of_decide_eq_true hsign, of_decide_eq_true hmark⟩

theorem parseUrl_urlPlatform : urlPlatform.parseUrl = parsePlainUrl := by
  simp only [urlPlatform]

theorem urlString_urlPlatform : urlPlatform.urlString = plainUrlString := by
  simp only [urlPlatform]

theorem parseUrl_eq_some {raw : String} {u : Url} (h : urlPlatform.parseUrl raw = some u) :
    u = splitUrl raw ∧ escapesWell (splitUrl raw).rest = true := by
  rw [parseUrl_urlPlatform] at h
  unfold parsePlainUrl at h
  split at h
  · next hsome => exact ⟨(Option.some.inj h).symm, hsome⟩
  · cases h

theorem plainUrlString_plain (u : Url) (q : String) :
    plainUrlString { u with fragment := "", rawQuery := q } = plainUrl u.rest q := by
  unfold plainUrlString
  rw [if_pos rfl]
  exact String.append_empty

theorem keptQuery_plain (privacy : Policy) (rawQuery : String) :
    '#' ∉ (keptQuery urlPlatform privacy rawQuery).toList := by
  unfold keptQuery
  split
  · exact List.not_mem_nil
  · simp only [urlPlatform]
    exact QueryString.numberSign_notMem_encodeText _

theorem sanitisedUrl_plain (privacy : Policy) (u : Url) :
    sanitisedUrl urlPlatform privacy u = plainUrl u.rest (keptQuery urlPlatform privacy u.rawQuery) := by
  unfold sanitisedUrl
  rw [urlString_urlPlatform]
  exact plainUrlString_plain u _

theorem netUrl_urlPlatform : NetUrl urlPlatform where
  string_fragment := by
    intro raw u privacy hu
    obtain ⟨rfl, -⟩ := parseUrl_eq_some hu
    rw [sanitisedUrl_plain]
    exact plainUrl_plain (rest_splitUrl raw) (keptQuery_plain privacy _)
  string_query := by
    intro raw u privacy hu
    obtain ⟨rfl, -⟩ := parseUrl_eq_some hu
    rw [sanitisedUrl_plain]
    exact queryText_plainUrl (rest_splitUrl raw) (keptQuery_plain privacy _)
  parse_string := by
    intro raw u privacy hu
    obtain ⟨rfl, hescapes⟩ := parseUrl_eq_some hu
    have hstring := plainUrlString_plain (splitUrl raw) (keptQuery urlPlatform privacy (splitUrl raw).rawQuery)
    rw [sanitisedUrl_plain, parseUrl_urlPlatform, urlString_urlPlatform]
    refine ⟨⟨(splitUrl raw).rest, "", keptQuery urlPlatform privacy (splitUrl raw).rawQuery, ""⟩, ?_, rfl, rfl, hstring⟩
    rw [parsePlainUrl, splitUrl_plainUrl (rest_splitUrl raw) (keptQuery_plain privacy _), if_pos hescapes]
  parseQuery_wellFormed := by
    intro s
    simp only [urlPlatform]
    exact Form.wellFormed_ofFields _
  parseQuery_empty := by
    simp only [urlPlatform]
    rfl
  parseQuery_encodeQuery := by
    intro raw u privacy _
    have hwell : (maskedQuery urlPlatform privacy (urlPlatform.parseQuery u.rawQuery)).WellFormed := by
      refine wellFormed_maskedQuery urlPlatform privacy ?_
      simp only [urlPlatform]
      exact Form.wellFormed_ofFields _
    generalize maskedQuery urlPlatform privacy (urlPlatform.parseQuery u.rawQuery) = v at hwell
    simp only [urlPlatform]
    rw [QueryString.parseText_encodeText hwell]
    exact QueryString.inKeyOrder_perm v
  encodeQuery_perm := by
    intro v w hv hperm
    simp only [urlPlatform]
    exact QueryString.encodeText_perm hv hperm
  encodeQuery_plain := by
    intro v
    simp only [urlPlatform]
    exact QueryString.numberSign_notMem_encodeText v

end Sample

end Momento
