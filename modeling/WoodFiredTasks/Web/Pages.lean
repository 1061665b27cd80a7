import WoodFiredTasks.Api.AuthChain
import WoodFiredTasks.Lib.Markup
import WoodFiredTasks.Router.HandlerRuns

set_option autoImplicit false

/-! # The pages

The renderers under `src/web/pages/`. The strings of each template stand in a definition of their
own, in the order of the values between them. -/

/-! ## Rendering HTML

`src/web/html.ts`: `escapeHtml`, the template tag `html` with its escape hatch `unsafe`, and the
`layout` around every page. -/

namespace WoodFiredTasks.Web

/-- `s.replace(pattern, replacement)` for a global pattern of one character. -/
def replace (s : String) (c : Char) (replacement : String) : String :=
  String.ofList (Markup.replaceAll c replacement.toList s.toList)

/-- `escapeHtml`; `none` for `null` and `undefined`. -/
def escapeHtml : Option String → String
  | none => ""
  | some s =>
    replace (replace (replace (replace (replace s '&' "&amp;") '<' "&lt;") '>' "&gt;") '"' "&quot;")
      '\'' "&#39;"

/-- A value that is interpolated. -/
inductive Value where
  | text (s : String)
  | nullable (s : Option String)
  | number (n : Nat)
  /-- `unsafe(raw)` -/
  | unsafeHtml (raw : String)

def Value.render : Value → String
  | .text s => escapeHtml (some s)
  | .nullable s => escapeHtml s
  | .number n => escapeHtml (some (toString n))
  | .unsafeHtml raw => raw

/-- What stands at one place of a template. -/
inductive Arg where
  | one (v : Value)
  | array (items : List Value)

def Arg.render : Arg → String
  | .one v => v.render
  | .array items => items.foldr (fun item out => item.render ++ out) ""

/-- The template tag `html`: the strings with the values between them. -/
def html : List String → List Arg → String
  | [], _ => ""
  | s :: strings, [] => s ++ html strings []
  | s :: strings, v :: values => s ++ v.render ++ html strings values

/-- `STYLE` -/
def style : String := "
:root \x7b color-scheme: light dark; \x7d
* \x7b box-sizing: border-box; \x7d
body \x7b font-family: -apple-system, BlinkMacSystemFont, \"Segoe UI\", Roboto, sans-serif; line-height: 1.5; margin: 0; padding: 2rem 1rem; \x7d
main \x7b max-width: 48rem; margin: 0 auto; \x7d
h1 \x7b font-size: 1.5rem; margin-top: 0; \x7d
table \x7b width: 100%; border-collapse: collapse; margin: 1rem 0; \x7d
th, td \x7b padding: 0.5rem; text-align: left; border-bottom: 1px solid #888; \x7d
form \x7b margin: 1rem 0; \x7d
input[type=text], input[type=datetime-local] \x7b width: 100%; padding: 0.5rem; margin: 0.25rem 0; \x7d
button \x7b padding: 0.5rem 1rem; cursor: pointer; \x7d
.minted-token \x7b background: #ffd; padding: 1rem; border: 1px solid #cc9; margin: 1rem 0; word-break: break-all; \x7d
.revoked \x7b color: #888; \x7d
.error-code \x7b color: #888; font-size: 0.875rem; \x7d
"

def layoutHead : String := "<!doctype html>
<html lang=\"en\">
<head>
<meta charset=\"utf-8\">
<meta name=\"viewport\" content=\"width=device-width, initial-scale=1\">
<title>"

def layoutMain : String := "</style>
</head>
<body>
<main>
"

def layoutEnd : String := "
</main>
</body>
</html>"

/-- `layout`: the body goes in as it is. -/
def layout (title body : String) : String :=
  layoutHead ++ escapeHtml (some title) ++ "</title>\n<style>" ++ style ++ layoutMain ++ body ++
    layoutEnd

end WoodFiredTasks.Web

namespace WoodFiredTasks.Web

open AuthChain (AuthenticatedUser AuthMethod)

/-! ## `tokens.ts` -/

/-- A row of the token tables; `prefixText` is the `prefix` of the source. -/
structure TokenRow where
  id : Nat
  name : String
  prefixText : String
  suffix : String
  createdAt : String
  lastUsedAt : Option String
  revokedAt : Option String
  expiresAt : Option String

structure RenderTokensOptions where
  tokens : List TokenRow
  /-- The token of `mintedToken`. -/
  mintedToken : Option String
  csrf : String

def mintedStrings : List String := ["
      <aside class=\"minted-token\">
        <h2>Token created</h2>
        <p><strong>This will not be shown again.</strong> Copy it now.</p>
        <p><code id=\"minted-token-value\">",
  "</code></p>
        <button type=\"button\" onclick=\"navigator.clipboard&amp;&amp;navigator.clipboard.writeText(document.getElementById('minted-token-value').textContent)\">Copy</button>
      </aside>
    "]

def activeStrings : List String := ["
      <tr>
        <td>",
  "</td>
        <td><code>",
  "…",
  "</code></td>
        <td>",
  "</td>
        <td>",
  "</td>
        <td>",
  "</td>
        <td>
          <form method=\"post\" action=\"/me/tokens/",
  "/revoke\" style=\"display:inline\">
            <input type=\"hidden\" name=\"_csrf\" value=\"",
  "\">
            <button type=\"submit\">Revoke</button>
          </form>
        </td>
      </tr>
    "]

def revokedStrings : List String := ["
      <tr class=\"revoked\">
        <td>",
  "</td>
        <td><code>",
  "…",
  "</code></td>
        <td>",
  "</td>
      </tr>
    "]

def revokedSectionStrings : List String := ["
        <h2>Revoked tokens</h2>
        <table>
          <thead><tr><th>Name</th><th>Token</th><th>Revoked at</th></tr></thead>
          <tbody>",
  "</tbody>
        </table>
      "]

def tokensStrings : List String := ["
    <h1>Personal access tokens</h1>
    ",
  "

    <h2>Active tokens</h2>
    <table>
      <thead><tr><th>Name</th><th>Token</th><th>Created</th><th>Last used</th><th>Expires</th><th></th></tr></thead>
      <tbody>",
  "</tbody>
    </table>

    <h2>New token</h2>
    <form method=\"post\" action=\"/api/v1/me/tokens\">
      <input type=\"hidden\" name=\"_csrf\" value=\"",
  "\">
      <label>Name <input type=\"text\" name=\"name\" required maxlength=\"100\"></label>
      <label>Scopes (comma-separated, optional) <input type=\"text\" name=\"scopes\"></label>
      <label>Expires at, UTC (optional) <input type=\"datetime-local\" name=\"expiresAt\"></label>
      <button type=\"submit\">Mint token</button>
    </form>

    ",
  "
  "]

def mintedBlock : Option String → String
  | none => ""
  | some token => html mintedStrings [.one (.text token)]

def activeRow (csrf : String) (t : TokenRow) : String :=
  html activeStrings
    [.one (.text t.name), .one (.text t.prefixText), .one (.text t.suffix), .one (.text t.createdAt),
      .one (.text (t.lastUsedAt.getD "—")), .one (.text (t.expiresAt.getD "—")),
      .one (.number t.id), .one (.text csrf)]

def revokedRow (t : TokenRow) : String :=
  html revokedStrings
    [.one (.text t.name), .one (.text t.prefixText), .one (.text t.suffix),
      .one (.nullable t.revokedAt)]

namespace RenderTokensOptions

def active (opts : RenderTokensOptions) : List TokenRow :=
  opts.tokens.filter fun t => t.revokedAt.isNone

def revoked (opts : RenderTokensOptions) : List TokenRow :=
  opts.tokens.filter fun t => t.revokedAt.isSome

end RenderTokensOptions

def revokedSection (revoked : List TokenRow) : String :=
  if revoked.length > 0 then
    html revokedSectionStrings [.array (revoked.map fun t => .unsafeHtml (revokedRow t))]
  else ""

def renderTokens (opts : RenderTokensOptions) : String :=
  layout "Tokens" (html tokensStrings
    [.one (.unsafeHtml (mintedBlock opts.mintedToken)),
      .array (opts.active.map fun t => .unsafeHtml (activeRow opts.csrf t)),
      .one (.text opts.csrf),
      .one (.unsafeHtml (revokedSection opts.revoked))])

/-! ## `device.ts` -/

structure DevicePageProps where
  csrfToken : String
  prefilledUserCode : Option String
  errorMessage : Option String

def errorStrings : List String := ["
      <p class=\"error\" role=\"alert\">",
  "</p>
    "]

def prefilledStrings : List String := ["
      <p class=\"prefilled-code\">",
  "</p>
    "]

def deviceStrings : List String := ["
    <h1>Approve CLI sign-in</h1>
    ",
  "
    ",
  "
    <form method=\"POST\" action=\"/auth/device/verify\">
      <input type=\"hidden\" name=\"_csrf\" value=\"",
  "\">
      <label>
        User code
        <input
          type=\"text\"
          name=\"user_code\"
          required
          pattern=\"[A-HJ-KM-NP-Z2-9]\x7b8\x7d\"
          maxlength=\"8\"
          autocomplete=\"off\"
          autocapitalize=\"characters\"
          spellcheck=\"false\"
          autofocus
          value=\"",
  "\">
      </label>
      <button type=\"submit\">Approve</button>
    </form>
  "]

def approvedStrings : List String := ["
    <h1>Approved</h1>
    <p>You can close this window.</p>
  "]

/-- A text that is there and not empty, in a template of its own. -/
def optionalBlock (strings : List String) (s : Option String) : String :=
  match s.filter (· ≠ "") with
  | none => ""
  | some s => html strings [.one (.text s)]

def renderDevicePage (props : DevicePageProps) : String :=
  layout "Approve CLI sign-in" (html deviceStrings
    [.one (.unsafeHtml (optionalBlock errorStrings props.errorMessage)),
      .one (.unsafeHtml (optionalBlock prefilledStrings props.prefilledUserCode)),
      .one (.text props.csrfToken),
      .one (.text (props.prefilledUserCode.getD ""))])

def renderDeviceApprovedPage : String := layout "Approved" (html approvedStrings [])

/-! ## `error.ts` -/

structure RenderErrorOptions where
  message : String
  reason : Option String

def reasonStrings : List String := ["<p class=\"error-code\">Error code: ", "</p>"]

def renderErrorStrings : List String := ["
    <h1>Something went wrong</h1>
    <p>",
  "</p>
    <p><a href=\"/\">Return home</a></p>
    ",
  "
  "]

/-- The fragment with the reason is not marked as `unsafe`, so it is escaped once more. -/
def renderError (opts : RenderErrorOptions) : String :=
  layout "Error" (html renderErrorStrings
    [.one (.text opts.message), .one (.text (optionalBlock reasonStrings opts.reason))])

/-! ## `login.ts` -/

def renderLoginStrings : List String := ["
    <h1>Sign in</h1>
    <p>Authenticate with your Google account to manage tasks and access tokens.</p>
    <p><a href=\"",
  "\" class=\"button\">Sign in with Google</a></p>
  "]

def loginHref (next : Option String) : String :=
  match next.filter (· ≠ "") with
  | none => "/auth/login"
  | some next => "/auth/login?next=" ++ Router.encodeURIComponent next

def renderLogin (next : Option String) : String :=
  layout "Sign in" (html renderLoginStrings [.one (.text (loginHref next))])

/-! ## `me.ts` -/

/-- `AUTH_METHOD_LABEL` -/
def authMethodLabel : AuthMethod → String
  | .session => "Google (browser session)"
  | .pat => "Personal Access Token"
  | .legacy => "Legacy API key"

structure RenderMeOptions where
  user : AuthenticatedUser
  authMethod : AuthMethod
  csrf : String
  authenticatedAt : Option Nat

/-- The time of the last sign-in, by way of `toISOString`. -/
def lastSignIn (toISOString : Nat → String) (authenticatedAt : Option Nat) : String :=
  match authenticatedAt.filter (· ≠ 0) with
  | none => "unknown"
  | some at_ => toISOString at_

def renderMeStrings : List String := ["
    <h1>",
  "</h1>
    <table>
      <tr><th>Email</th><td>",
  "</td></tr>
      <tr><th>Auth method</th><td>",
  "</td></tr>
      <tr><th>Last sign-in</th><td>",
  "</td></tr>
    </table>
    <p><a href=\"/me/tokens\">Manage tokens</a></p>
    <form method=\"post\" action=\"/auth/logout\">
      <input type=\"hidden\" name=\"_csrf\" value=\"",
  "\">
      <button type=\"submit\">Sign out</button>
    </form>
  "]

def renderMe (toISOString : Nat → String) (opts : RenderMeOptions) : String :=
  layout "Profile" (html renderMeStrings
    [.one (.text opts.user.displayName), .one (.text (opts.user.email.getD "—")),
      .one (.text (authMethodLabel opts.authMethod)),
      .one (.text (lastSignIn toISOString opts.authenticatedAt)), .one (.text opts.csrf)])

end WoodFiredTasks.Web
