set_option autoImplicit false

/-!
Declarations that every program can use: a small standard library and element types.
-/

namespace ApiDocs

/-- A declaration file that is part of every program. -/
structure Typings where
  path : String
  /-- The bare module specifier that resolves to the file. -/
  module : Option String
  source : String
deriving Repr

namespace Typings

def standardLibrary : Typings where
  path := "/node_modules/typescript/lib/lib.es5.d.ts"
  module := none
  source := "/// Minimal standard library typings for the analyzer.

interface Object \x7b
    toString(): string;
    valueOf(): Object;
    hasOwnProperty(v: PropertyKey): boolean;
\x7d

interface Function \x7b
    readonly length: number;
    readonly name: string;
\x7d

interface String \x7b
    readonly length: number;
    charAt(pos: number): string;
    indexOf(searchString: string, position?: number): number;
    slice(start?: number, end?: number): string;
    split(separator: string, limit?: number): string[];
    toLowerCase(): string;
    toUpperCase(): string;
    trim(): string;
\x7d

interface Number \x7b
    toFixed(fractionDigits?: number): string;
    toString(radix?: number): string;
\x7d

interface Boolean \x7b
    valueOf(): boolean;
\x7d

interface RegExp \x7b
    readonly source: string;
    readonly flags: string;
    test(string: string): boolean;
\x7d

interface Date \x7b
    getTime(): number;
    toISOString(): string;
\x7d

interface Error \x7b
    name: string;
    message: string;
    stack?: string;
\x7d

declare var Error: \x7b
    new (message?: string): Error;
    (message?: string): Error;
\x7d;

declare var Date: \x7b
    new (value?: number | string): Date;
    now(): number;
\x7d;

declare var Object: \x7b
    keys(o: object): string[];
    assign<T, U>(target: T, source: U): T & U;
\x7d;

declare var Math: \x7b
    readonly PI: number;
    abs(x: number): number;
    floor(x: number): number;
    max(...values: number[]): number;
    min(...values: number[]): number;
    random(): number;
    round(x: number): number;
\x7d;

declare var JSON: \x7b
    parse(text: string): any;
    stringify(value: any, replacer?: any, space?: string | number): string;
\x7d;

declare function parseInt(string: string, radix?: number): number;
declare function parseFloat(string: string): number;
declare function isNaN(number: number): boolean;

declare var NaN: number;
declare var Infinity: number;

type PropertyKey = string | number | symbol;

interface ReadonlyArray<T> \x7b
    readonly length: number;
    readonly [n: number]: T;
    indexOf(searchElement: T, fromIndex?: number): number;
    join(separator?: string): string;
    slice(start?: number, end?: number): T[];
    map<U>(callbackfn: (value: T, index: number, array: readonly T[]) => U): U[];
    filter(predicate: (value: T, index: number, array: readonly T[]) => unknown): T[];
    forEach(callbackfn: (value: T, index: number, array: readonly T[]) => void): void;
    reduce<U>(callbackfn: (previousValue: U, currentValue: T, currentIndex: number) => U, initialValue: U): U;
    some(predicate: (value: T, index: number) => unknown): boolean;
    every(predicate: (value: T, index: number) => unknown): boolean;
    find(predicate: (value: T, index: number) => unknown): T | undefined;
\x7d

interface Array<T> \x7b
    length: number;
    [n: number]: T;
    push(...items: T[]): number;
    pop(): T | undefined;
    concat(...items: T[][]): T[];
    indexOf(searchElement: T, fromIndex?: number): number;
    join(separator?: string): string;
    slice(start?: number, end?: number): T[];
    map<U>(callbackfn: (value: T, index: number, array: T[]) => U): U[];
    filter(predicate: (value: T, index: number, array: T[]) => unknown): T[];
    forEach(callbackfn: (value: T, index: number, array: T[]) => void): void;
    reduce<U>(callbackfn: (previousValue: U, currentValue: T, currentIndex: number) => U, initialValue: U): U;
    some(predicate: (value: T, index: number) => unknown): boolean;
    every(predicate: (value: T, index: number) => unknown): boolean;
    find(predicate: (value: T, index: number) => unknown): T | undefined;
\x7d

declare var Array: \x7b
    new <T>(...items: T[]): T[];
    isArray(arg: any): boolean;
\x7d;

interface PromiseLike<T> \x7b
    then<TResult1 = T, TResult2 = never>(onfulfilled?: (value: T) => TResult1, onrejected?: (reason: any) => TResult2): PromiseLike<TResult1 | TResult2>;
\x7d

interface Promise<T> \x7b
    then<TResult1 = T, TResult2 = never>(onfulfilled?: (value: T) => TResult1, onrejected?: (reason: any) => TResult2): Promise<TResult1 | TResult2>;
    catch<TResult = never>(onrejected?: (reason: any) => TResult): Promise<T | TResult>;
\x7d

declare var Promise: \x7b
    new <T>(executor: (resolve: (value: T) => void, reject: (reason?: any) => void) => void): Promise<T>;
    resolve<T>(value: T): Promise<T>;
    reject<T = never>(reason?: any): Promise<T>;
\x7d;

/** Make all properties in T optional */
type Partial<T> = \x7b
    [P in keyof T]?: T[P];
\x7d;

/** Make all properties in T required */
type Required<T> = \x7b
    [P in keyof T]-?: T[P];
\x7d;

/** Make all properties in T readonly */
type Readonly<T> = \x7b
    readonly [P in keyof T]: T[P];
\x7d;

/** From T, pick a set of properties whose keys are in the union K */
type Pick<T, K extends keyof T> = \x7b
    [P in K]: T[P];
\x7d;

/** Construct a type with a set of properties K of type T */
type Record<K extends keyof any, T> = \x7b
    [P in K]: T;
\x7d;
"

def react : Typings where
  path := "/node_modules/@types/react/index.d.ts"
  module := some "react"
  source := "/// Minimal React typings for component detection.

export type Key = string | number;

export type ReactText = string | number;

export type ReactChild = ReactElement<any> | ReactText;

export type ReactNode = ReactChild | ReactNodeArray | boolean | null | undefined;

export interface ReactNodeArray extends Array<ReactNode> \x7b\x7d

export interface ReactElement<P = any, T = any> \x7b
    type: T;
    props: P;
    key: Key | null;
\x7d

export interface Attributes \x7b
    key?: Key;
\x7d

export interface RefObject<T> \x7b
    readonly current: T | null;
\x7d

export type Ref<T> = ((instance: T | null) => void) | RefObject<T> | null;

export interface ClassAttributes<T> extends Attributes \x7b
    ref?: Ref<T>;
\x7d

export class Component<P = \x7b\x7d, S = \x7b\x7d> \x7b
    constructor(props: Readonly<P>);
    setState<K extends keyof S>(state: Pick<S, K> | S | null, callback?: () => void): void;
    forceUpdate(callback?: () => void): void;
    render(): ReactNode;
    readonly props: Readonly<P>;
    state: Readonly<S>;
    context: any;
\x7d

export class PureComponent<P = \x7b\x7d, S = \x7b\x7d> extends Component<P, S> \x7b\x7d

export interface FunctionComponent<P = \x7b\x7d> \x7b
    (props: P, context?: any): ReactElement<any> | null;
    displayName?: string;
    defaultProps?: Partial<P>;
\x7d

export type FC<P = \x7b\x7d> = FunctionComponent<P>;

export type SFC<P = \x7b\x7d> = FunctionComponent<P>;

export function createElement<P>(type: any, props?: P | null, ...children: ReactNode[]): ReactElement<P>;

export function useState<S>(initialState: S | (() => S)): [S, (value: S) => void];

export function useEffect(effect: () => void | (() => void), deps?: ReadonlyArray<any>): void;

export function useRef<T>(initialValue: T): RefObject<T>;

export const Fragment: any;

declare global \x7b
    namespace JSX \x7b
        interface Element extends ReactElement<any, any> \x7b\x7d
        interface ElementClass extends Component<any> \x7b
            render(): ReactNode;
        \x7d
        interface ElementAttributesProperty \x7b
            props: \x7b\x7d;
        \x7d
        interface ElementChildrenAttribute \x7b
            children: \x7b\x7d;
        \x7d
        interface IntrinsicAttributes extends Attributes \x7b\x7d
        interface IntrinsicElements \x7b
            [elemName: string]: any;
        \x7d
    \x7d
\x7d
"

/-- The declaration files in the order in which a program starts with them. -/
def all : List Typings := [standardLibrary, react]

def forModule? (specifier : String) : Option Typings := all.find? (·.module = some specifier)

end Typings

end ApiDocs
