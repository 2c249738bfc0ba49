import JsxAttributes.Vocabulary.Table

/-!
The properties of HTML, also those that are out of use or were never standard. Attribute names are
property names in small letters.
-/
namespace JsxAttributes.Vocabulary

def htmlStandard : List (String × Shape) := [
  ("abbr", .plain), ("accept", .commas), ("acceptCharset", .spaces), ("accessKey", .spaces),
  ("action", .plain), ("allow", .plain), ("allowFullScreen", .bool),
  ("allowPaymentRequest", .bool), ("allowUserMedia", .bool), ("alt", .plain), ("as", .plain),
  ("async", .bool), ("autoCapitalize", .plain), ("autoComplete", .spaces), ("autoFocus", .bool),
  ("autoPlay", .bool), ("blocking", .spaces), ("capture", .plain), ("charSet", .plain),
  ("checked", .bool), ("cite", .plain), ("className", .spaces), ("cols", .num),
  ("colSpan", .plain), ("content", .plain), ("contentEditable", .boolish), ("controls", .bool),
  ("controlsList", .spaces), ("coords", { number := true, commaSeparated := true }),
  ("crossOrigin", .plain), ("data", .plain), ("dateTime", .plain), ("decoding", .plain),
  ("default", .bool), ("defer", .bool), ("dir", .plain), ("dirName", .plain), ("disabled", .bool),
  ("download", .overloaded), ("draggable", .boolish), ("encType", .plain),
  ("enterKeyHint", .plain), ("fetchPriority", .plain), ("form", .plain), ("formAction", .plain),
  ("formEncType", .plain), ("formMethod", .plain), ("formNoValidate", .bool),
  ("formTarget", .plain), ("headers", .spaces), ("height", .num), ("hidden", .bool),
  ("high", .num), ("href", .plain), ("hrefLang", .plain), ("htmlFor", .spaces),
  ("httpEquiv", .spaces), ("id", .plain), ("imageSizes", .plain), ("imageSrcSet", .plain),
  ("inert", .bool), ("inputMode", .plain), ("integrity", .plain), ("is", .plain),
  ("isMap", .bool), ("itemId", .plain), ("itemProp", .spaces), ("itemRef", .spaces),
  ("itemScope", .bool), ("itemType", .spaces), ("kind", .plain), ("label", .plain),
  ("lang", .plain), ("language", .plain), ("list", .plain), ("loading", .plain), ("loop", .bool),
  ("low", .num), ("manifest", .plain), ("max", .plain), ("maxLength", .num), ("media", .plain),
  ("method", .plain), ("min", .plain), ("minLength", .num), ("multiple", .bool), ("muted", .bool),
  ("name", .plain), ("nonce", .plain), ("noModule", .bool), ("noValidate", .bool),
  ("onAbort", .plain), ("onAfterPrint", .plain), ("onAuxClick", .plain),
  ("onBeforeMatch", .plain), ("onBeforePrint", .plain), ("onBeforeToggle", .plain),
  ("onBeforeUnload", .plain), ("onBlur", .plain), ("onCancel", .plain), ("onCanPlay", .plain),
  ("onCanPlayThrough", .plain), ("onChange", .plain), ("onClick", .plain), ("onClose", .plain),
  ("onContextLost", .plain), ("onContextMenu", .plain), ("onContextRestored", .plain),
  ("onCopy", .plain), ("onCueChange", .plain), ("onCut", .plain), ("onDblClick", .plain),
  ("onDrag", .plain), ("onDragEnd", .plain), ("onDragEnter", .plain), ("onDragExit", .plain),
  ("onDragLeave", .plain), ("onDragOver", .plain), ("onDragStart", .plain), ("onDrop", .plain),
  ("onDurationChange", .plain), ("onEmptied", .plain), ("onEnded", .plain), ("onError", .plain),
  ("onFocus", .plain), ("onFormData", .plain), ("onHashChange", .plain), ("onInput", .plain),
  ("onInvalid", .plain), ("onKeyDown", .plain), ("onKeyPress", .plain), ("onKeyUp", .plain),
  ("onLanguageChange", .plain), ("onLoad", .plain), ("onLoadedData", .plain),
  ("onLoadedMetadata", .plain), ("onLoadEnd", .plain), ("onLoadStart", .plain),
  ("onMessage", .plain), ("onMessageError", .plain), ("onMouseDown", .plain),
  ("onMouseEnter", .plain), ("onMouseLeave", .plain), ("onMouseMove", .plain),
  ("onMouseOut", .plain), ("onMouseOver", .plain), ("onMouseUp", .plain), ("onOffline", .plain),
  ("onOnline", .plain), ("onPageHide", .plain), ("onPageShow", .plain), ("onPaste", .plain),
  ("onPause", .plain), ("onPlay", .plain), ("onPlaying", .plain), ("onPopState", .plain),
  ("onProgress", .plain), ("onRateChange", .plain), ("onRejectionHandled", .plain),
  ("onReset", .plain), ("onResize", .plain), ("onScroll", .plain), ("onScrollEnd", .plain),
  ("onSecurityPolicyViolation", .plain), ("onSeeked", .plain), ("onSeeking", .plain),
  ("onSelect", .plain), ("onSlotChange", .plain), ("onStalled", .plain), ("onStorage", .plain),
  ("onSubmit", .plain), ("onSuspend", .plain), ("onTimeUpdate", .plain), ("onToggle", .plain),
  ("onUnhandledRejection", .plain), ("onUnload", .plain), ("onVolumeChange", .plain),
  ("onWaiting", .plain), ("onWheel", .plain), ("open", .bool), ("optimum", .num),
  ("pattern", .plain), ("ping", .spaces), ("placeholder", .plain), ("playsInline", .bool),
  ("popover", .plain), ("popoverTarget", .plain), ("popoverTargetAction", .plain),
  ("poster", .plain), ("preload", .plain), ("readOnly", .bool), ("referrerPolicy", .plain),
  ("rel", .spaces), ("required", .bool), ("reversed", .bool), ("rows", .num), ("rowSpan", .num),
  ("sandbox", .spaces), ("scope", .plain), ("scoped", .bool), ("seamless", .bool),
  ("selected", .bool), ("shadowRootClonable", .bool), ("shadowRootDelegatesFocus", .bool),
  ("shadowRootMode", .plain), ("shape", .plain), ("size", .num), ("sizes", .plain),
  ("slot", .plain), ("span", .num), ("spellCheck", .boolish), ("src", .plain), ("srcDoc", .plain),
  ("srcLang", .plain), ("srcSet", .plain), ("start", .num), ("step", .plain), ("style", .plain),
  ("tabIndex", .num), ("target", .plain), ("title", .plain), ("translate", .plain),
  ("type", .plain), ("typeMustMatch", .bool), ("useMap", .plain), ("value", .boolish),
  ("width", .num), ("wrap", .plain), ("writingSuggestions", .plain)]

def htmlLegacy : List (String × Shape) := [
  ("align", .plain), ("aLink", .plain), ("archive", .spaces), ("axis", .plain),
  ("background", .plain), ("bgColor", .plain), ("border", .num), ("borderColor", .plain),
  ("bottomMargin", .num), ("cellPadding", .plain), ("cellSpacing", .plain), ("char", .plain),
  ("charOff", .plain), ("classId", .plain), ("clear", .plain), ("code", .plain),
  ("codeBase", .plain), ("codeType", .plain), ("color", .plain), ("compact", .bool),
  ("declare", .bool), ("event", .plain), ("face", .plain), ("frame", .plain),
  ("frameBorder", .plain), ("hSpace", .num), ("leftMargin", .num), ("link", .plain),
  ("longDesc", .plain), ("lowSrc", .plain), ("marginHeight", .num), ("marginWidth", .num),
  ("noResize", .bool), ("noHref", .bool), ("noShade", .bool), ("noWrap", .bool),
  ("object", .plain), ("profile", .plain), ("prompt", .plain), ("rev", .plain),
  ("rightMargin", .num), ("rules", .plain), ("scheme", .plain), ("scrolling", .boolish),
  ("standby", .plain), ("summary", .plain), ("text", .plain), ("topMargin", .num),
  ("valueType", .plain), ("version", .plain), ("vAlign", .plain), ("vLink", .plain),
  ("vSpace", .num)]

def htmlNonStandard : List (String × Shape) := [
  ("allowTransparency", .plain), ("autoCorrect", .plain), ("autoSave", .plain),
  ("disablePictureInPicture", .bool), ("disableRemotePlayback", .bool), ("prefix", .plain),
  ("property", .plain), ("results", .num), ("security", .plain), ("unselectable", .plain)]

def html : Vocabulary where
  space := some .html
  suggestedAttribute := Text.lowercased
  exceptions := [
    ("acceptcharset", "accept-charset"), ("classname", "class"), ("htmlfor", "for"),
    ("httpequiv", "http-equiv")]
  mustUseProperty := ["checked", "multiple", "muted", "selected"]
  properties := htmlStandard ++ htmlLegacy ++ htmlNonStandard

end JsxAttributes.Vocabulary
