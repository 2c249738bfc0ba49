import JsxAttributes.Vocabulary.Table

/-!
The properties of SVG. Attribute names keep the case of property names; names of event handlers
are in small letters.
-/
namespace JsxAttributes.Vocabulary

/-- Names the handler of an event: `on` and then a capital. -/
def isHandlerName (property : String) : Bool :=
  match property.toList with
  | 'o' :: 'n' :: c :: _ => c.isUpper
  | _ => false

def svgProperties : List (String × Shape) := [
  ("about", .commasOrSpaces), ("accentHeight", .num), ("accumulate", .plain),
  ("additive", .plain), ("alignmentBaseline", .plain), ("alphabetic", .num), ("amplitude", .num),
  ("arabicForm", .plain), ("ascent", .num), ("attributeName", .plain), ("attributeType", .plain),
  ("azimuth", .num), ("bandwidth", .plain), ("baselineShift", .plain), ("baseFrequency", .plain),
  ("baseProfile", .plain), ("bbox", .plain), ("begin", .plain), ("bias", .num), ("by", .plain),
  ("calcMode", .plain), ("capHeight", .num), ("className", .spaces), ("clip", .plain),
  ("clipPath", .plain), ("clipPathUnits", .plain), ("clipRule", .plain), ("color", .plain),
  ("colorInterpolation", .plain), ("colorInterpolationFilters", .plain), ("colorProfile", .plain),
  ("colorRendering", .plain), ("content", .plain), ("contentScriptType", .plain),
  ("contentStyleType", .plain), ("crossOrigin", .plain), ("cursor", .plain), ("cx", .plain),
  ("cy", .plain), ("d", .plain), ("dataType", .plain), ("defaultAction", .plain),
  ("descent", .num), ("diffuseConstant", .num), ("direction", .plain), ("display", .plain),
  ("dur", .plain), ("divisor", .num), ("dominantBaseline", .plain), ("download", .bool),
  ("dx", .plain), ("dy", .plain), ("edgeMode", .plain), ("editable", .plain), ("elevation", .num),
  ("enableBackground", .plain), ("end", .plain), ("event", .plain), ("exponent", .num),
  ("externalResourcesRequired", .plain), ("fill", .plain), ("fillOpacity", .num),
  ("fillRule", .plain), ("filter", .plain), ("filterRes", .plain), ("filterUnits", .plain),
  ("floodColor", .plain), ("floodOpacity", .plain), ("focusable", .plain),
  ("focusHighlight", .plain), ("fontFamily", .plain), ("fontSize", .plain),
  ("fontSizeAdjust", .plain), ("fontStretch", .plain), ("fontStyle", .plain),
  ("fontVariant", .plain), ("fontWeight", .plain), ("format", .plain), ("fr", .plain),
  ("from", .plain), ("fx", .plain), ("fy", .plain), ("g1", .commas), ("g2", .commas),
  ("glyphName", .commas), ("glyphOrientationHorizontal", .plain),
  ("glyphOrientationVertical", .plain), ("glyphRef", .plain), ("gradientTransform", .plain),
  ("gradientUnits", .plain), ("handler", .plain), ("hanging", .num),
  ("hatchContentUnits", .plain), ("hatchUnits", .plain), ("height", .plain), ("href", .plain),
  ("hrefLang", .plain), ("horizAdvX", .num), ("horizOriginX", .num), ("horizOriginY", .num),
  ("id", .plain), ("ideographic", .num), ("imageRendering", .plain),
  ("initialVisibility", .plain), ("in", .plain), ("in2", .plain), ("intercept", .num),
  ("k", .num), ("k1", .num), ("k2", .num), ("k3", .num), ("k4", .num),
  ("kernelMatrix", .commasOrSpaces), ("kernelUnitLength", .plain), ("keyPoints", .plain),
  ("keySplines", .plain), ("keyTimes", .plain), ("kerning", .plain), ("lang", .plain),
  ("lengthAdjust", .plain), ("letterSpacing", .plain), ("lightingColor", .plain),
  ("limitingConeAngle", .num), ("local", .plain), ("markerEnd", .plain), ("markerMid", .plain),
  ("markerStart", .plain), ("markerHeight", .plain), ("markerUnits", .plain),
  ("markerWidth", .plain), ("mask", .plain), ("maskContentUnits", .plain), ("maskUnits", .plain),
  ("mathematical", .plain), ("max", .plain), ("media", .plain),
  ("mediaCharacterEncoding", .plain), ("mediaContentEncodings", .plain), ("mediaSize", .num),
  ("mediaTime", .plain), ("method", .plain), ("min", .plain), ("mode", .plain), ("name", .plain),
  ("navDown", .plain), ("navDownLeft", .plain), ("navDownRight", .plain), ("navLeft", .plain),
  ("navNext", .plain), ("navPrev", .plain), ("navRight", .plain), ("navUp", .plain),
  ("navUpLeft", .plain), ("navUpRight", .plain), ("numOctaves", .plain), ("observer", .plain),
  ("offset", .plain), ("onAbort", .plain), ("onActivate", .plain), ("onBlur", .plain),
  ("onChange", .plain), ("onClick", .plain), ("onDblClick", .plain), ("onError", .plain),
  ("onFocus", .plain), ("onFocusIn", .plain), ("onFocusOut", .plain), ("onInput", .plain),
  ("onKeyDown", .plain), ("onKeyUp", .plain), ("onLoad", .plain), ("onMouseDown", .plain),
  ("onMouseMove", .plain), ("onMouseOut", .plain), ("onMouseOver", .plain), ("onMouseUp", .plain),
  ("onResize", .plain), ("onScroll", .plain), ("onUnload", .plain), ("onZoom", .plain),
  ("opacity", .plain), ("operator", .plain), ("order", .plain), ("orient", .plain),
  ("orientation", .plain), ("origin", .plain), ("overflow", .plain), ("overlay", .plain),
  ("overlinePosition", .num), ("overlineThickness", .num), ("paintOrder", .plain),
  ("panose1", .plain), ("path", .plain), ("pathLength", .num), ("patternContentUnits", .plain),
  ("patternTransform", .plain), ("patternUnits", .plain), ("phase", .plain), ("ping", .spaces),
  ("pitch", .plain), ("playbackOrder", .plain), ("pointerEvents", .plain), ("points", .plain),
  ("pointsAtX", .num), ("pointsAtY", .num), ("pointsAtZ", .num), ("preserveAlpha", .plain),
  ("preserveAspectRatio", .plain), ("primitiveUnits", .plain), ("propagate", .plain),
  ("property", .commasOrSpaces), ("r", .plain), ("radius", .plain), ("referrerPolicy", .plain),
  ("refX", .plain), ("refY", .plain), ("rel", .commasOrSpaces), ("rev", .commasOrSpaces),
  ("renderingIntent", .plain), ("repeatCount", .plain), ("repeatDur", .plain),
  ("requiredExtensions", .commasOrSpaces), ("requiredFeatures", .commasOrSpaces),
  ("requiredFonts", .commasOrSpaces), ("requiredFormats", .commasOrSpaces), ("resource", .plain),
  ("restart", .plain), ("result", .plain), ("rotate", .plain), ("rx", .plain), ("ry", .plain),
  ("scale", .plain), ("seed", .plain), ("shapeRendering", .plain), ("side", .plain),
  ("slope", .plain), ("snapshotTime", .plain), ("specularConstant", .num),
  ("specularExponent", .num), ("spreadMethod", .plain), ("spacing", .plain),
  ("startOffset", .plain), ("stdDeviation", .plain), ("stemh", .plain), ("stemv", .plain),
  ("stitchTiles", .plain), ("stopColor", .plain), ("stopOpacity", .plain),
  ("strikethroughPosition", .num), ("strikethroughThickness", .num), ("string", .plain),
  ("stroke", .plain), ("strokeDashArray", .commasOrSpaces), ("strokeDashOffset", .plain),
  ("strokeLineCap", .plain), ("strokeLineJoin", .plain), ("strokeMiterLimit", .num),
  ("strokeOpacity", .num), ("strokeWidth", .plain), ("style", .plain), ("surfaceScale", .num),
  ("syncBehavior", .plain), ("syncBehaviorDefault", .plain), ("syncMaster", .plain),
  ("syncTolerance", .plain), ("syncToleranceDefault", .plain),
  ("systemLanguage", .commasOrSpaces), ("tabIndex", .num), ("tableValues", .plain),
  ("target", .plain), ("targetX", .num), ("targetY", .num), ("textAnchor", .plain),
  ("textDecoration", .plain), ("textRendering", .plain), ("textLength", .plain),
  ("timelineBegin", .plain), ("title", .plain), ("transformBehavior", .plain), ("type", .plain),
  ("typeOf", .commasOrSpaces), ("to", .plain), ("transform", .plain), ("transformOrigin", .plain),
  ("u1", .plain), ("u2", .plain), ("underlinePosition", .num), ("underlineThickness", .num),
  ("unicode", .plain), ("unicodeBidi", .plain), ("unicodeRange", .plain), ("unitsPerEm", .num),
  ("values", .plain), ("vAlphabetic", .num), ("vMathematical", .num), ("vectorEffect", .plain),
  ("vHanging", .num), ("vIdeographic", .num), ("version", .plain), ("vertAdvY", .num),
  ("vertOriginX", .num), ("vertOriginY", .num), ("viewBox", .plain), ("viewTarget", .plain),
  ("visibility", .plain), ("width", .plain), ("widths", .plain), ("wordSpacing", .plain),
  ("writingMode", .plain), ("x", .plain), ("x1", .plain), ("x2", .plain),
  ("xChannelSelector", .plain), ("xHeight", .num), ("y", .plain), ("y1", .plain), ("y2", .plain),
  ("yChannelSelector", .plain), ("z", .plain), ("zoomAndPan", .plain)]

/-- The attributes that are not written as their properties. -/
def svgExceptions : List (String × String) := [
  ("accentHeight", "accent-height"), ("alignmentBaseline", "alignment-baseline"),
  ("arabicForm", "arabic-form"), ("baselineShift", "baseline-shift"), ("capHeight", "cap-height"),
  ("className", "class"), ("clipPath", "clip-path"), ("clipRule", "clip-rule"),
  ("colorInterpolation", "color-interpolation"),
  ("colorInterpolationFilters", "color-interpolation-filters"), ("colorProfile", "color-profile"),
  ("colorRendering", "color-rendering"), ("crossOrigin", "crossorigin"), ("dataType", "datatype"),
  ("dominantBaseline", "dominant-baseline"), ("enableBackground", "enable-background"),
  ("fillOpacity", "fill-opacity"), ("fillRule", "fill-rule"), ("floodColor", "flood-color"),
  ("floodOpacity", "flood-opacity"), ("fontFamily", "font-family"), ("fontSize", "font-size"),
  ("fontSizeAdjust", "font-size-adjust"), ("fontStretch", "font-stretch"),
  ("fontStyle", "font-style"), ("fontVariant", "font-variant"), ("fontWeight", "font-weight"),
  ("glyphName", "glyph-name"), ("glyphOrientationHorizontal", "glyph-orientation-horizontal"),
  ("glyphOrientationVertical", "glyph-orientation-vertical"), ("hrefLang", "hreflang"),
  ("horizAdvX", "horiz-adv-x"), ("horizOriginX", "horiz-origin-x"),
  ("horizOriginY", "horiz-origin-y"), ("imageRendering", "image-rendering"),
  ("letterSpacing", "letter-spacing"), ("lightingColor", "lighting-color"),
  ("markerEnd", "marker-end"), ("markerMid", "marker-mid"), ("markerStart", "marker-start"),
  ("navDown", "nav-down"), ("navDownLeft", "nav-down-left"), ("navDownRight", "nav-down-right"),
  ("navLeft", "nav-left"), ("navNext", "nav-next"), ("navPrev", "nav-prev"),
  ("navRight", "nav-right"), ("navUp", "nav-up"), ("navUpLeft", "nav-up-left"),
  ("navUpRight", "nav-up-right"), ("overlinePosition", "overline-position"),
  ("overlineThickness", "overline-thickness"), ("paintOrder", "paint-order"),
  ("panose1", "panose-1"), ("playbackOrder", "playbackorder"),
  ("pointerEvents", "pointer-events"), ("referrerPolicy", "referrerpolicy"),
  ("renderingIntent", "rendering-intent"), ("shapeRendering", "shape-rendering"),
  ("stopColor", "stop-color"), ("stopOpacity", "stop-opacity"),
  ("strikethroughPosition", "strikethrough-position"),
  ("strikethroughThickness", "strikethrough-thickness"), ("strokeDashArray", "stroke-dasharray"),
  ("strokeDashOffset", "stroke-dashoffset"), ("strokeLineCap", "stroke-linecap"),
  ("strokeLineJoin", "stroke-linejoin"), ("strokeMiterLimit", "stroke-miterlimit"),
  ("strokeOpacity", "stroke-opacity"), ("strokeWidth", "stroke-width"), ("tabIndex", "tabindex"),
  ("textAnchor", "text-anchor"), ("textDecoration", "text-decoration"),
  ("textRendering", "text-rendering"), ("timelineBegin", "timelinebegin"),
  ("transformOrigin", "transform-origin"), ("typeOf", "typeof"),
  ("underlinePosition", "underline-position"), ("underlineThickness", "underline-thickness"),
  ("unicodeBidi", "unicode-bidi"), ("unicodeRange", "unicode-range"),
  ("unitsPerEm", "units-per-em"), ("vAlphabetic", "v-alphabetic"), ("vHanging", "v-hanging"),
  ("vIdeographic", "v-ideographic"), ("vMathematical", "v-mathematical"),
  ("vectorEffect", "vector-effect"), ("vertAdvY", "vert-adv-y"), ("vertOriginX", "vert-origin-x"),
  ("vertOriginY", "vert-origin-y"), ("wordSpacing", "word-spacing"),
  ("writingMode", "writing-mode"), ("xHeight", "x-height")]

def svg : Vocabulary where
  space := some .svg
  suggestedAttribute property :=
    if isHandlerName property then Text.lowercased property else property
  exceptions := svgExceptions
  properties := svgProperties

end JsxAttributes.Vocabulary
