import UrlFilter.Settings.Basic

/-!
# The usual settings

The settings that hold where nothing else is said. The lists were found by trial; no rule of the
library attaches a meaning to their entries.
-/

namespace UrlFilter.Settings

/-- The options that a lookup cannot take into account; a rule with one of them is dropped. -/
def ignoredOptionsList : List String := [
  "domain", "script", "stylesheet", "object", "xmlhttprequest", "subdocument", "ping", "websocket",
  "webrtc", "document", "elemhide", "genericblock", "other", "sitekey", "match-case", "collapse",
  "donottrack", "media", "font"]

/-- The options that admit a rule without a keyword. -/
def highValueOptionsList : List String := [
  "third-party", "image", "popup", "object-subrequest"]

/-- The keywords that raise the rank of a rule; each admits a rule too. -/
def rankingKeywordsList : List String := [
  "trac?k", "beacon", "stat[is]?", "anal[iy]", "goog", "facebook", "yahoo", "amazon", "adob",
  "msn", "goog\\S+?ad", "amazon\\S+?ad", "yahoo\\S+?ad", "facebook\\S+?ad", "adob\\S+?ad",
  "msn\\S+ad", "doubleclick", "cooki", "twitter", "krxd", "pagead", "syndicat", "(?:\\bad|ad\\b)",
  "securepub", "static", "\\boas\\b", "ads", "cdn", "cloud", "banner", "financ", "share",
  "traffic", "creativ", "media", "host", "affil", "^mob", "data", "your?", "watch", "survey",
  "stealth", "invisible", "brand", "site", "merch", "kli[kp]", "clic?k", "popup", "log", "assets",
  "count", "metric", "score", "event", "tool", "quant", "chart", "opti?m", "partner", "sponsor",
  "affiliate"]

/-- The keywords that admit a rule without raising its rank. -/
def furtherKeywordsList : List String := [
  "image", "img", "pop", "game", "free", "film", "fast", "farmville", "fan", "exp", "cash",
  "money", "dollar", "buck", "dump", "deal", "daily", "content", "kick", "down", "file", "video",
  "match", "ifram", "cam", "widget", "monk", "rapid", "platform", "google", "follow", "shop",
  "love", "smile", "happy", "dash", "board", "tube", "torrent",
  "\\.(biz|ru|tv|stream|cricket|online|racing|party|trade|webcam|science|win|accountant|loan|faith|date)",
  "join", "social", "script", "xchang", "zip", "invest", "arstech", "buzzfeed", "imdb", "baidu",
  "yandex", "youtube", "ebay", "discovercard", "chase", "hsbc", "usbank", "santander", "kaspersky",
  "symantec", "brightcove", "hidden", "macromedia", "flash", "[^i]scan[^dy]", "secret", "skype",
  "tsbbank", "tunnel", "ubs\\.com", "unblock", "unlock", "usaa\\.com", "ustreas\\.gov",
  "ustreasury", "verifiedbyvisa\\.com", "viagra", "wachovia", "wellsfargo\\.com", "westernunion",
  "windowsupdate", "plugin", "nielsen", "oas-config", "oas/oas", "pix", "visit", "voxmedia\\.com",
  "w3track\\.com", "web_?ad", "webiq", "weblog", "webtrek", "webtrend", "wget\\.exe",
  "winstart\\.(exe|zip)", "wired\\.com", "ad-limits\\.js", "ad-manager", "ad_engine", "adx\\.js",
  "\\.bat", "\\.bin", "[^ck]anal[^_]", "\\.com/[ap]\\.gif", "\\.com\\.au/ads", "\\.cpl",
  "[^bhmz]eros", "\\.exe", "\\.msi", "\\.net/p\\.gif", "\\.pac", "\\.pdf", "\\.rar", "\\.scr",
  "\\.sh", "transparent1x1\\.gif", "/travidia", "__utm\\.js", "whv2_001\\.js", "xtcore\\.js",
  "\\.zip", "stats\\.wp\\.com", "[^i]crack", "virgins\\.com", "\\.xyz", "shareasale\\.com",
  "financialcontent\\.com"]

/-- The rules with wildcards that are kept before others, the most important first. -/
def wildcardPreferencesList : List String := [
  "track", "beacon", "stat[is]", "anal[iy]"]

/-- The marks in a comment behind which a list turns to sites that are of no interest. -/
def ignoredSectionsList : List String := [
  "gizmodo.in", "shink.in", "project-free-tv.li", "vshare.eu", "pencurimovie.ph", "filmlinks4u.is",
  "Spiegel.de", "bento.de", "German", "French", "Arabic", "Armenian", "Belarusian", "Bulgarian",
  "Chinese", "Croatian", "Czech", "Danish", "Dutch", "Estonian", "Finnish", "Georgian", "Greek",
  "Hebrew", "Hungarian", "Icelandic", "Indian", "Indonesian", "Italian", "Japanese", "Korean",
  "Latvian", "Lithuanian", "Norwegian", "Persian", "Polish", "Portuguese", "Romanian", "Russian",
  "Serbian", "Singaporean", "Slovene", "Slovak", "Spanish", "Swedish", "Thai", "Turkish",
  "Ukranian", "Ukrainian", "Vietnamese", "Gamestar.de", "Focus.de", "tvspielfilm.de", "Prosieben",
  "Wetter.com", "Woxikon.de", "Fanfiktion.de", "boote-forum.de", "comunio.de", "planetsnow.de"]

/-- The file extensions that end a path. -/
def pathExtensionsList : List String := [
  "jsp?", "php", "xml", "jpe?g", "png", "p?gif", "img", "swf", "flv", "[sp]?html?", "f?cgi", "pl?",
  "aspx", "ashx", "css", "jsonp?", "asp", "search", "cfm", "ico", "act(?:ion)?", "spy", "do",
  "stm", "cms", "txt", "imu", "dll", "io", "smjs", "xhr", "ount", "bin", "py", "dyn", "gne", "mvc",
  "lv", "nap", "jam", "nhn"]

/-- The rules that stand in front of all others. -/
def pinnedRulesList : List String := [
  "/securepubads.", "||google.com/pagead"]

/-- The hosts that are blocked in spite of all exceptions. -/
def blockedHostsList : List String := [
  "iad.apple.com", "iadsdk.apple.com", "iadsdk.apple.com.edgekey.net", "bingads.microsoft.com",
  "azure.bingads.trafficmanager.net", "choice.microsoft.com", "choice.microsoft.com.nsatc.net",
  "corpext.msitadfs.glbdns2.microsoft.com", "corp.sts.microsoft.com", "df.telemetry.microsoft.com",
  "diagnostics.support.microsoft.com", "feedback.search.microsoft.com",
  "i1.services.social.microsoft.com", "i1.services.social.microsoft.com.nsatc.net",
  "redir.metaservices.microsoft.com", "reports.wes.df.telemetry.microsoft.com",
  "services.wes.df.telemetry.microsoft.com", "settings-sandbox.data.microsoft.com",
  "settings-win.data.microsoft.com", "sqm.df.telemetry.microsoft.com",
  "sqm.telemetry.microsoft.com", "sqm.telemetry.microsoft.com.nsatc.net",
  "statsfe1.ws.microsoft.com", "statsfe2.update.microsoft.com.akadns.net",
  "statsfe2.ws.microsoft.com", "survey.watson.microsoft.com",
  "telecommand.telemetry.microsoft.com", "telecommand.telemetry.microsoft.com.nsatc.net",
  "telemetry.urs.microsoft.com", "vortex.data.microsoft.com", "vortex-sandbox.data.microsoft.com",
  "vortex-win.data.microsoft.com", "cy2.vortex.data.microsoft.com.akadns.net",
  "watson.microsoft.com", "watson.ppe.telemetry.microsoft.com", "watson.telemetry.microsoft.com",
  "watson.telemetry.microsoft.com.nsatc.net", "wes.df.telemetry.microsoft.com",
  "win10.ipv6.microsoft.com", "www.bingads.microsoft.com"]

/-- The texts of a list of strings. -/
def textsOf (ss : List String) : List Text := ss.map String.toList

/-- The usual settings. -/
def usual : Settings where
  maxExactRules := some 3999
  maxPatternRules := some 3999
  maxWildcards := some 999
  includeExceptions := true
  dropOptionedPatterns := true
  ignoredOptions := textsOf ignoredOptionsList
  highValueOptions := textsOf highValueOptionsList
  contentKeywords := textsOf (rankingKeywordsList ++ furtherKeywordsList)
  rankingKeywords := textsOf rankingKeywordsList
  wildcardPreferences := textsOf wildcardPreferencesList
  ignoredSections := textsOf ignoredSectionsList
  pathExtensions := textsOf pathExtensionsList
  pinnedRules := textsOf pinnedRulesList
  blockedHosts := textsOf blockedHostsList

end UrlFilter.Settings
